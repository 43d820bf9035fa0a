import SpeeduinoDash.WarningStream

set_option autoImplicit false

/-!
# How long an acknowledgement lasts

The list of active warnings is made anew at each check, without the marks of the last one.
-/
namespace SpeeduinoDash.WarningManager
open Lib.Runs Lib.Snapshots

variable {R : Type} [QmlReal R]

def isCheck : Op R → Bool
  | .checkWarnings _ => true
  | _ => false

def acknowledged (p : Parameter) (m : WarningManager R) : Bool :=
  m.activeWarnings.any fun w => w.parameter = p ∧ w.acknowledged = true

/-- In the run, `p` is acknowledged after `pre` while it is active, and a check follows `mid`. -/
structure Acknowledged (ops pre mid : List (Op R)) (p : Parameter) (now : Parameter → ℕ) :
    Prop where
  run : pre ++ .acknowledgeWarning p.name :: mid ++ [.checkWarnings now] <+: ops
  active : isActive p (after pre) = true

def ActiveThroughout (pre rest : List (Op R)) (p : Parameter) : Prop :=
  ∀ mid now, mid ++ [.checkWarnings now] <+: rest →
    isActive p (after (pre ++ .acknowledgeWarning p.name :: mid ++ [.checkWarnings now])) = true

def AcknowledgementPersists (ops : List (Op R)) : Prop :=
  ∀ pre mid p now, Acknowledged ops pre mid p now →
    ActiveThroughout pre (mid ++ [.checkWarnings now]) p →
      acknowledged p (after (pre ++ .acknowledgeWarning p.name :: mid ++ [.checkWarnings now])) =
        true

/-- What is acknowledged while it is active is normal at the next check. -/
def GoneAtNextCheck (ops : List (Op R)) : Prop :=
  ∀ pre mid p now, Acknowledged ops pre mid p now → (∀ op ∈ mid, isCheck op = false) →
    (after (pre ++ .acknowledgeWarning p.name :: mid)).severity p = none

theorem acknowledged_checkWarnings (m : WarningManager R) (now : Parameter → ℕ) (p : Parameter) :
    acknowledged p (m.next (.checkWarnings now)) = false := by
  rw [acknowledged, List.any_eq_false]
  intro w hw
  have hfresh := ((m.mem_newWarnings now w).mp hw).2
  rw [hfresh]
  simp

theorem isActive_checkWarnings (m : WarningManager R) (now : Parameter → ℕ) (p : Parameter) :
    isActive p (m.next (.checkWarnings now)) = (m.severity p).isSome := by
  rw [isActive_eq]
  exact congrArg (fun active => (active p).isSome) (m.active_checkWarnings now)

theorem exists_first_check (mid : List (Op R)) (now : Parameter → ℕ) :
    ∃ first now', first ++ [.checkWarnings now'] <+: mid ++ [.checkWarnings now] ∧
      ∀ op ∈ first, isCheck op = false := by
  induction mid with
  | nil => exact ⟨[], now, List.prefix_rfl, nofun⟩
  | cons op mid ih =>
    cases hop : isCheck op with
    | true =>
      cases op with
      | checkWarnings now' => exact ⟨[], now', ⟨mid ++ [.checkWarnings now], rfl⟩, nofun⟩
      | _ => cases hop
    | false =>
      obtain ⟨first, now', hfirst, hnone⟩ := ih
      refine ⟨op :: first, now', (List.prefix_cons_inj op).mpr hfirst, ?_⟩
      intro op' hmem
      rcases List.mem_cons.mp hmem with rfl | hmem
      · exact hop
      · exact hnone op' hmem

theorem after_check (ops : List (Op R)) (now : Parameter → ℕ) :
    after (ops ++ [.checkWarnings now]) = (after ops).next (.checkWarnings now) := run_snoc ..

theorem activeThroughout_of_no_check {pre mid : List (Op R)} {p : Parameter}
    (hnone : ∀ op ∈ mid, isCheck op = false) (now : Parameter → ℕ)
    (hstill : ((after (pre ++ .acknowledgeWarning p.name :: mid)).severity p).isSome = true) :
    ActiveThroughout pre (mid ++ [.checkWarnings now]) p := by
  intro mid' now' hmid
  rcases List.prefix_concat_iff.mp hmid with heq | hearlier
  · obtain ⟨rfl, -⟩ := List.append_inj' heq rfl
    rw [after_check, isActive_checkWarnings]
    exact hstill
  · have hcheck := hnone (.checkWarnings now') (hearlier.subset (by simp))
    cases hcheck

theorem acknowledgement_persists_iff (ops : List (Op R)) :
    AcknowledgementPersists ops ↔ GoneAtNextCheck ops := by
  constructor
  · intro h pre mid p now hack hnone
    by_contra hstill
    have hactive := activeThroughout_of_no_check hnone now (Option.isSome_iff_ne_none.mpr hstill)
    have hmarked := h pre mid p now hack hactive
    rw [after_check, acknowledged_checkWarnings] at hmarked
    cases hmarked
  · intro h pre mid p now hack hactive
    obtain ⟨first, now', hfirst, hnone⟩ := exists_first_check mid now
    have hearly : Acknowledged ops pre first p now' := by
      refine ⟨List.IsPrefix.trans ?_ hack.run, hack.active⟩
      rw [List.append_assoc, List.append_assoc]
      exact (List.prefix_append_right_inj pre).mpr ((List.prefix_cons_inj _).mpr hfirst)
    have hgone := h pre first p now' hearly hnone
    have hstill := hactive first now' hfirst
    rw [after_check, isActive_checkWarnings, hgone] at hstill
    cases hstill

def checkedAgain : List (Op ℚ) :=
  [.setInputs { rpm := 7100 }, .checkWarnings fun _ => 0, .acknowledgeWarning "RPM",
    .checkWarnings fun _ => 100]

theorem acknowledgement_lost : ¬ ∀ ops : List (Op ℚ), AcknowledgementPersists ops := by
  intro h
  have hack : Acknowledged checkedAgain (checkedAgain.take 2) [] .rpm (fun _ => 100) :=
    ⟨List.prefix_rfl, by decide +kernel⟩
  have hstill : ((after (checkedAgain.take 2 ++ [.acknowledgeWarning "RPM"])).severity
      .rpm).isSome = true := by
    decide +kernel
  have hnone : ∀ op ∈ ([] : List (Op ℚ)), isCheck op = false := by simp
  have hactive : ActiveThroughout (checkedAgain.take 2) [.checkWarnings fun _ => 100] .rpm :=
    activeThroughout_of_no_check hnone _ hstill
  have hmarked := h checkedAgain _ _ _ _ hack hactive
  revert hmarked
  decide +kernel

end SpeeduinoDash.WarningManager
