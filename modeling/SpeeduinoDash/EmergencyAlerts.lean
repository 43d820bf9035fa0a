import SpeeduinoDash.WarningManager

set_option autoImplicit false

/-!
# Which emergencies are alerted

A warning is announced when its parameter was not in the list of the last check, whatever the
severity it was listed with.
-/
namespace SpeeduinoDash.WarningManager
open Lib.Runs Lib.Snapshots

variable {R : Type} [QmlReal R]

section Check

variable (m : WarningManager R)

def active (p : Parameter) : Option Severity :=
  (m.activeWarnings.map (fun w => (w.parameter, w.severity))).lookup p

theorem active_isSome (p : Parameter) :
    (m.active p).isSome = listed Warning.parameter p m.activeWarnings :=
  lookup_isSome Warning.parameter Warning.severity p m.activeWarnings

theorem mem_newWarnings (now : Parameter → ℕ) (w : Warning) :
    w ∈ m.newWarnings now ↔
      m.severity w.parameter = some w.severity ∧
        w = ⟨w.parameter, w.severity, m.message w.parameter w.severity, now w.parameter, false⟩ := by
  unfold newWarnings
  rw [List.mem_filterMap]
  constructor
  · intro h
    obtain ⟨p, -, hp⟩ := h
    obtain ⟨severity, hseverity, hw⟩ := Option.map_eq_some_iff.mp hp
    subst hw
    exact ⟨hseverity, rfl⟩
  · intro h
    refine ⟨w.parameter, w.parameter.mem_all, ?_⟩
    rw [h.1, Option.map_some]
    exact congrArg some h.2.symm

theorem active_checkWarnings (now : Parameter → ℕ) :
    (m.checkWarnings now).1.active = m.severity := by
  funext p
  change ((m.newWarnings now).map (fun w => (w.parameter, w.severity))).lookup p = _
  have hpairs : (m.newWarnings now).map (fun w => (w.parameter, w.severity)) =
      Parameter.all.filterMap (fun q => (m.severity q).map (fun severity => (q, severity))) := by
    rw [newWarnings, List.map_filterMap]
    apply List.filterMap_congr
    intro q _
    rw [Option.map_map]
    rfl
  rw [hpairs, lookup_filterMap, if_pos p.mem_all]

theorem active_acknowledgeWarning (parameter : String) :
    (m.acknowledgeWarning parameter).active = m.active := by
  funext p
  unfold active acknowledgeWarning
  dsimp only
  rw [map_modify_of_eq]
  intro w
  rfl

theorem active_setThreshold (parameter type : String) (value : R) :
    (m.setThreshold parameter type value).active = m.active := by
  unfold setThreshold
  split <;> rfl

theorem emergencyAlert_mem (now : Parameter → ℕ) (text : String) :
    .emergencyAlert text ∈ (m.checkWarnings now).2 ↔
      ∃ p, m.severity p = some .emergency ∧ m.message p .emergency = text ∧ m.active p = none := by
  have hnone : ∀ p, m.active p = none ↔ listed Warning.parameter p m.activeWarnings = false := by
    intro p
    rw [← active_isSome, Option.isSome_eq_false_iff, Option.isNone_iff_eq_none]
  change _ ∈ List.flatMap signalsOf _ ++ List.map _ _ ↔ _
  rw [List.mem_append, List.mem_flatMap]
  constructor
  · intro h
    rcases h with h | h
    · obtain ⟨w, hw, hsignal⟩ := h
      obtain ⟨hnew, hlisted⟩ := (mem_arrivals _).mp hw
      obtain ⟨hseverity, hwarning⟩ := (m.mem_newWarnings now w).mp hnew
      unfold signalsOf at hsignal
      split_ifs at hsignal with hlevel
      · have hemergency : w.severity = .emergency := by
          revert hlevel
          cases w.severity <;> decide
        have htext : text = w.message := by simpa using hsignal
        rw [hwarning, hemergency] at htext
        rw [hemergency] at hseverity
        exact ⟨w.parameter, hseverity, htext.symm, (hnone w.parameter).mpr hlisted⟩
      · simp at hsignal
    · simp at h
  · intro h
    obtain ⟨p, hseverity, htext, hactive⟩ := h
    refine .inl ⟨⟨p, .emergency, m.message p .emergency, now p, false⟩, ?_, ?_⟩
    · refine (mem_arrivals _).mpr ⟨(m.mem_newWarnings now _).mpr ⟨hseverity, rfl⟩, ?_⟩
      exact (hnone p).mp hactive
    · simp [signalsOf, Severity.level, htext]

end Check

section Messages

variable (m : WarningManager R)

def heading : Parameter → List Char
  | .rpm => ['R', 'P', 'M', ' ', 'a', 't']
  | .clt => ['O', 'V', 'E', 'R', 'H', 'E']
  | .oilTemp => ['O', 'i', 'l', ' ', 'o', 'v']
  | .oilPress => ['O', 'I', 'L', ' ', 'P', 'R']
  | .boost => ['O', 'V', 'E', 'R', 'B', 'O']
  | .egt => ['E', 'G', 'T', ' ', 'E', 'M']
  | _ => []

theorem worst_false (critical warning : Bool) : worst false critical warning ≠ some .emergency := by
  cases critical <;> cases warning <;> decide

theorem take_message (a b c : String) (h : 6 ≤ a.toList.length) :
    (a ++ b ++ c).toList.take 6 = a.toList.take 6 := by
  rw [String.toList_append, String.toList_append, List.append_assoc, List.take_append_of_le_length h]

theorem heading_of_emergency {p : Parameter} (h : m.severity p = some .emergency) :
    heading p ≠ [] ∧ (m.message p .emergency).toList.take 6 = heading p := by
  cases p with
  | battery => exact absurd h (worst_false _ _)
  | afr => exact absurd h (worst_false _ _)
  | iat => exact absurd h (worst_false _ _)
  | cel => exact absurd h (worst_false _ _)
  | knock => exact absurd h (worst_false _ _)
  | rpm => exact ⟨nofun, take_message "RPM at " _ _ (by decide +kernel)⟩
  | clt => exact ⟨nofun, take_message "OVERHEAT! " _ _ (by decide +kernel)⟩
  | oilTemp => exact ⟨nofun, take_message "Oil overheat! " _ _ (by decide +kernel)⟩
  | oilPress => exact ⟨nofun, take_message "OIL PRESSURE EMERGENCY! " _ _ (by decide +kernel)⟩
  | boost => exact ⟨nofun, take_message "OVERBOOST! " _ _ (by decide +kernel)⟩
  | egt => exact ⟨nofun, take_message "EGT EMERGENCY! " _ _ (by decide +kernel)⟩

theorem heading_injective :
    ∀ p ∈ Parameter.all, ∀ q ∈ Parameter.all, heading p = heading q → heading p ≠ [] → p = q := by
  decide +kernel

/-- The text of an alert says which parameter it is about. -/
theorem message_injective {p q : Parameter} (hp : m.severity p = some .emergency)
    (hq : m.severity q = some .emergency)
    (h : m.message p .emergency = m.message q .emergency) : p = q := by
  obtain ⟨hne, hheading⟩ := m.heading_of_emergency hp
  have hheading' := (m.heading_of_emergency hq).2
  rw [← h, hheading] at hheading'
  exact heading_injective p p.mem_all q q.mem_all hheading' hne

theorem alerted_iff (now : Parameter → ℕ) {p : Parameter} (h : m.severity p = some .emergency) :
    .emergencyAlert (m.message p .emergency) ∈ (m.checkWarnings now).2 ↔ m.active p = none := by
  rw [emergencyAlert_mem]
  constructor
  · intro halert
    obtain ⟨q, hq, htext, hactive⟩ := halert
    rwa [m.message_injective hq h htext] at hactive
  · intro hactive
    exact ⟨p, h, rfl, hactive⟩

end Messages

section Runs

def checked (m : WarningManager R) : Op R → Option (Parameter → Option Severity)
  | .checkWarnings _ => some m.severity
  | _ => none

def displayed (m : WarningManager R) : Op R → Option (Parameter → Option Severity)
  | .checkWarnings _ => some m.severity
  | .clearAllWarnings => some (fun _ => none)
  | _ => none

def severityAtLastCheck (ops : List (Op R)) : Parameter → Option Severity :=
  (lastShown next checked {} ops).getD (fun _ => none)

/-- As at the last check, with nothing left after `clearAllWarnings`. -/
def severityOnDisplay (ops : List (Op R)) : Parameter → Option Severity :=
  (lastShown next displayed {} ops).getD (fun _ => none)

theorem severityOnDisplay_snoc (ops : List (Op R)) (op : Op R) :
    severityOnDisplay (ops ++ [op]) =
      ((after ops).displayed op).getD (severityOnDisplay ops) :=
  lastShown_snoc_getD next displayed {} ops op (fun _ => none)

theorem severityAtLastCheck_snoc (ops : List (Op R)) (op : Op R) :
    severityAtLastCheck (ops ++ [op]) =
      ((after ops).checked op).getD (severityAtLastCheck ops) :=
  lastShown_snoc_getD next checked {} ops op (fun _ => none)

theorem active_next (m : WarningManager R) (op : Op R) :
    (m.next op).active = (m.displayed op).getD m.active := by
  cases op with
  | checkWarnings now => exact m.active_checkWarnings now
  | acknowledgeWarning parameter => exact m.active_acknowledgeWarning parameter
  | setThreshold parameter type value => exact m.active_setThreshold parameter type value
  | _ => rfl

theorem active_after (ops : List (Op R)) : (after ops).active = severityOnDisplay ops := by
  induction ops using List.reverseRecOn with
  | nil => rfl
  | append_singleton ops op ih =>
    rw [severityOnDisplay_snoc, ← ih, ← active_next, after, run_snoc, after]

theorem severityOnDisplay_checked {ops : List (Op R)} {p : Parameter} {severity : Severity}
    (h : severityOnDisplay ops p = some severity) : severityAtLastCheck ops p = some severity := by
  induction ops using List.reverseRecOn with
  | nil => cases h
  | append_singleton ops op ih =>
    rw [severityOnDisplay_snoc] at h
    rw [severityAtLastCheck_snoc]
    cases op with
    | checkWarnings now => exact h
    | clearAllWarnings => cases h
    | _ => exact ih h

/-- Each check that finds a parameter at 4 which was not there at the last check alerts it. -/
def EmergenciesAlerted (ops : List (Op R)) : Prop :=
  ∀ pre now, pre ++ [.checkWarnings now] <+: ops → ∀ p, (after pre).severity p = some .emergency →
    severityAtLastCheck pre p ≠ some .emergency →
      .emergencyAlert ((after pre).message p .emergency) ∈ ((after pre).checkWarnings now).2

/-- No check finds a parameter at 4 that is on display with less. -/
def NoEscalation (ops : List (Op R)) : Prop :=
  ∀ pre now, pre ++ [.checkWarnings now] <+: ops → ∀ p, (after pre).severity p = some .emergency →
    ∀ severity ∈ severityOnDisplay pre p, severity = .emergency

theorem emergenciesAlerted_iff (ops : List (Op R)) : EmergenciesAlerted ops ↔ NoEscalation ops := by
  apply forall₅_congr
  intro pre now _ p hemergency
  rw [alerted_iff _ now hemergency, active_after]
  constructor
  · intro halerted severity hdisplay
    have hchecked := severityOnDisplay_checked hdisplay
    by_contra hlower
    have hnone : severityOnDisplay pre p = none := by
      apply halerted
      rw [hchecked]
      simpa using hlower
    rw [hnone] at hdisplay
    cases hdisplay
  · intro hnoEscalation hlast
    cases hdisplay : severityOnDisplay pre p with
    | none => rfl
    | some severity =>
      have hchecked := severityOnDisplay_checked hdisplay
      rw [hnoEscalation severity hdisplay] at hchecked
      exact absurd hchecked hlast

end Runs

section Rationals

/-- Below 10²¹, as many digits after the point as asked for, halves rounded away from zero. -/
def ratToFixed (x : ℚ) (digits : ℕ) : String :=
  let scaled := ⌊|x| * 10 ^ digits + 1 / 2⌋.toNat
  let sign := if x < 0 then "-" else ""
  let whole := toString (scaled / 10 ^ digits)
  if digits = 0 then sign ++ whole
  else
    sign ++ whole ++ "." ++
      String.ofList ((Nat.toDigits 10 (scaled % 10 ^ digits)).leftpad digits '0')

instance : QmlReal ℚ where
  decidableLE := inferInstance
  decidableLT := inferInstance
  literal x := x
  toFixed := ratToFixed

def overRev : List (Op ℚ) :=
  [.setInputs { rpm := 7100 }, .checkWarnings (fun _ => 0), .setInputs { rpm := 7600 },
    .checkWarnings (fun _ => 100)]

theorem overRev_not_alerted : ¬ ∀ ops : List (Op ℚ), EmergenciesAlerted ops := by
  intro h
  have halert := h overRev (overRev.take 3) (fun _ => 100) List.prefix_rfl .rpm (by decide +kernel)
    (by decide +kernel)
  revert halert
  rw [alerted_iff _ _ (by decide +kernel)]
  decide +kernel

end Rationals

end SpeeduinoDash.WarningManager
