import SpeeduinoDash.EmergencyAlerts
import SpeeduinoDash.Lib.Alternation

set_option autoImplicit false

/-!
# The event stream of the warnings

A listener that follows `warningTriggered` and `warningCleared` rebuilds the list of active
warnings, as long as nothing empties the list without telling.
-/
namespace SpeeduinoDash

/-- What a signal says of a parameter: that it is active now, or no longer. -/
def Signal.about (p : Parameter) : Signal → Option Bool
  | .warningTriggered q _ _ => if q = p then some true else none
  | .warningCleared q => if q = p then some false else none
  | .emergencyAlert _ => none

def replay (signals : List Signal) (p : Parameter) : Bool :=
  signals.foldl (fun shown signal => (signal.about p).getD shown) false

theorem replay_eq (signals : List Signal) (p : Parameter) :
    replay signals p = ((signals.filterMap (Signal.about p)).getLast?).getD false := by
  unfold replay
  induction signals using List.reverseRecOn with
  | nil => rfl
  | append_singleton signals signal ih =>
    rw [List.foldl_append, List.foldl_cons, List.foldl_nil, ih, List.filterMap_append,
      List.getLast?_append]
    cases h : signal.about p <;> simp [h]

namespace WarningManager
open Lib.Alternation Lib.Runs Lib.Snapshots

variable {R : Type} [QmlReal R]

def isActive (p : Parameter) (m : WarningManager R) : Bool :=
  listed Warning.parameter p m.activeWarnings

def Distinct (m : WarningManager R) : Prop := (m.activeWarnings.map Warning.parameter).Nodup

section Step

variable (m : WarningManager R)

theorem newWarnings_nodup (now : Parameter → ℕ) :
    ((m.newWarnings now).map Warning.parameter).Nodup := by
  have hsub : ((m.newWarnings now).map Warning.parameter).Sublist Parameter.all := by
    have hfilter : (m.newWarnings now).map Warning.parameter =
        Parameter.all.filter (fun p => (m.severity p).isSome) := by
      rw [newWarnings, List.map_filterMap, ← List.filterMap_eq_filter]
      apply List.filterMap_congr
      intro p _
      cases h : m.severity p <;> simp [h, Option.guard]
    rw [hfilter]
    exact List.filter_sublist
  exact hsub.nodup (by decide)

theorem distinct_next {op : Op R} (h : m.Distinct) : (m.next op).Distinct := by
  cases op with
  | checkWarnings now => exact m.newWarnings_nodup now
  | acknowledgeWarning parameter =>
    unfold Distinct next step acknowledgeWarning
    dsimp only
    rw [map_modify_of_eq]
    · exact h
    · intro w
      rfl
  | clearAllWarnings => exact List.nodup_nil
  | setThreshold parameter type value =>
    unfold Distinct next step setThreshold
    dsimp only
    split <;> exact h
  | setInputs inputs => exact h
  | clearHistory => exact h

theorem filterMap_signalsOf (p : Parameter) (warnings : List Warning) :
    (warnings.flatMap signalsOf).filterMap (Signal.about p) =
      warnings.filterMap (fun w => if w.parameter = p then some true else none) := by
  induction warnings with
  | nil => rfl
  | cons w warnings ih =>
    rw [List.flatMap_cons, List.filterMap_append, ih, List.filterMap_cons]
    unfold signalsOf
    split_ifs <;> simp_all [Signal.about]

/-- A check tells of a parameter exactly when it changes whether it is active. -/
theorem tells_checkWarnings (h : m.Distinct) (now : Parameter → ℕ) (p : Parameter) :
    Tells step (isActive p) (Signal.about p) m (.checkWarnings now) := by
  have hnew := m.newWarnings_nodup now
  change (List.flatMap signalsOf (arrivals Warning.parameter m.activeWarnings (m.newWarnings now)) ++
      (arrivals Warning.parameter (m.newWarnings now) m.activeWarnings).map
        (fun w => Signal.warningCleared w.parameter)).filterMap (Signal.about p) =
    if listed Warning.parameter p (m.newWarnings now) = listed Warning.parameter p m.activeWarnings
    then [] else [listed Warning.parameter p (m.newWarnings now)]
  have hcleared : ((arrivals Warning.parameter (m.newWarnings now) m.activeWarnings).map
      (fun w => Signal.warningCleared w.parameter)).filterMap (Signal.about p) =
      (arrivals Warning.parameter (m.newWarnings now) m.activeWarnings).filterMap
        (fun w => if w.parameter = p then some false else none) := by
    rw [List.filterMap_map]
    rfl
  rw [List.filterMap_append, filterMap_signalsOf, hcleared,
    filterMap_key Warning.parameter p true (arrivals_nodup _ hnew),
    filterMap_key Warning.parameter p false (arrivals_nodup _ h), listed_arrivals, listed_arrivals]
  cases listed Warning.parameter p (m.newWarnings now) <;>
    cases listed Warning.parameter p m.activeWarnings <;> rfl

theorem isActive_eq (p : Parameter) : isActive p m = (m.active p).isSome :=
  (m.active_isSome p).symm

theorem tells_next (h : m.Distinct) {op : Op R}
    (hclear : op = .clearAllWarnings → m.activeWarnings = []) (p : Parameter) :
    Tells step (isActive p) (Signal.about p) m op := by
  cases op with
  | checkWarnings now => exact m.tells_checkWarnings h now p
  | clearAllWarnings =>
    apply tells_of_quiet rfl
    change listed _ p [] = listed _ p m.activeWarnings
    rw [hclear rfl]
  | acknowledgeWarning parameter =>
    apply tells_of_quiet rfl
    change isActive p (m.acknowledgeWarning parameter) = _
    rw [isActive_eq, active_acknowledgeWarning, isActive_eq]
  | setThreshold parameter type value =>
    apply tells_of_quiet rfl
    change isActive p (m.setThreshold parameter type value) = _
    rw [isActive_eq, active_setThreshold, isActive_eq]
  | setInputs inputs => exact tells_of_quiet rfl rfl
  | clearHistory => exact tells_of_quiet rfl rfl

end Step

section Runs

def signals (ops : List (Op R)) : List Signal := emitted step {} ops

theorem after_eq (ops : List (Op R)) : after ops = run (Lib.Alternation.next step) {} ops := rfl

theorem distinct_after (ops : List (Op R)) : (after ops).Distinct :=
  run_invariant next Distinct (fun m _ h => m.distinct_next h)
    (show Distinct {} from List.nodup_nil) ops

/-- The signals of each parameter alternate, and replayed they give the list after every
    operation. -/
def StreamTold (ops : List (Op R)) : Prop :=
  (∀ p, Alternates true ((signals ops).filterMap (Signal.about p))) ∧
    ∀ pre, pre <+: ops → ∀ p, replay (signals pre) p = isActive p (after pre)

def ClearsNothing (ops : List (Op R)) : Prop :=
  ∀ pre, pre ++ [.clearAllWarnings] <+: ops → (after pre).activeWarnings = []

theorem everyStep_tells {ops : List (Op R)} (h : ClearsNothing ops) (p : Parameter) :
    EveryStep (Lib.Alternation.next step) (Tells step (isActive p) (Signal.about p)) {} ops := by
  intro pre op hpre
  apply tells_next _ (distinct_after pre)
  intro hclear
  rw [hclear] at hpre
  exact h pre hpre

theorem streamTold_iff (ops : List (Op R)) : StreamTold ops ↔ ClearsNothing ops := by
  constructor
  · rintro ⟨-, hreplay⟩ pre hpre
    have hsame : ∀ p, isActive p (after pre) = false := by
      intro p
      have hbefore := hreplay pre ((List.prefix_append pre _).trans hpre) p
      have hafter := hreplay _ hpre p
      have hquiet : signals (pre ++ [.clearAllWarnings]) = signals pre := by
        rw [signals, emitted_snoc]
        exact List.append_nil _
      have hempty : after (pre ++ [.clearAllWarnings]) = (after pre).clearAllWarnings :=
        run_snoc next {} pre .clearAllWarnings
      rw [hquiet, hbefore, hempty] at hafter
      exact hafter
    rw [List.eq_nil_iff_forall_not_mem]
    intro w hw
    have hlisted : isActive w.parameter (after pre) = true :=
      (listed_iff Warning.parameter).mpr (List.mem_map_of_mem hw)
    rw [hsame] at hlisted
    cases hlisted
  · intro h
    refine ⟨?_, ?_⟩
    · intro p
      exact alternates_emitted (everyStep_tells h p)
    · intro pre hpre p
      have hpre' : ClearsNothing pre := fun early hearly => h early (hearly.trans hpre)
      rw [replay_eq, after_eq, value_run (everyStep_tells hpre' p)]
      rfl

end Runs

def clearedByHand : List (Op ℚ) :=
  [.setInputs { rpm := 7100 }, .checkWarnings (fun _ => 0), .clearAllWarnings]

theorem clearedByHand_not_told : ¬ ∀ ops : List (Op ℚ), StreamTold ops := by
  intro hclaim
  have hreplay := (hclaim clearedByHand).2 clearedByHand List.prefix_rfl .rpm
  exact absurd hreplay (by decide +kernel)

end WarningManager

end SpeeduinoDash
