import SpeeduinoDash.Lib.History
import SpeeduinoDash.WarningStream

set_option autoImplicit false

/-!
# The books of the warning manager

A list that is rebuilt, a running maximum and a bounded history, kept by different functions.
-/
namespace SpeeduinoDash.WarningManager
open Lib.History Lib.Runs Lib.Snapshots

variable {R : Type} [QmlReal R]

def trigger (w : Warning) : Signal := .warningTriggered w.parameter w.severity w.message

def triggered (m : WarningManager R) : Op R → List Warning
  | .checkWarnings now =>
    (m.newWarnings now).filter fun w => decide (trigger w ∈ (m.checkWarnings now).2)
  | _ => []

structure Recorded (R : Type) [QmlReal R] where
  manager : WarningManager R
  sinceCleared : List Warning := []

def Recorded.next (s : Recorded R) (op : Op R) : Recorded R where
  manager := s.manager.next op
  sinceCleared :=
    match op with
    | .clearHistory => []
    | _ => s.sinceCleared ++ s.manager.triggered op

def recorded (maxHistorySize : ℕ) (ops : List (Op R)) : Recorded R :=
  run Recorded.next { manager := { maxHistorySize } } ops

/-- One entry for each parameter, the maximum of their severities, and of what was triggered the
    newest. -/
structure Booked (maxHistorySize : ℕ) (s : Recorded R) : Prop where
  distinct : (s.manager.activeWarnings.map Warning.parameter).Nodup
  highest : s.manager.highestSeverity =
    (s.manager.activeWarnings.map fun w => w.severity.level).max?.getD 0
  history : s.manager.warningHistory = s.sinceCleared.reverse.take maxHistorySize

section Check

variable (m : WarningManager R)

theorem addToHistory_eq (w : Warning) :
    m.addToHistory w =
      { m with
        warningHistory :=
          push m.maxHistorySize { w with acknowledged := false } m.warningHistory } := rfl

theorem foldl_addToHistory (warnings : List Warning) (h : ∀ w ∈ warnings, w.acknowledged = false) :
    warnings.foldl addToHistory m =
      { m with
        warningHistory :=
          warnings.foldl (fun history w => push m.maxHistorySize w history) m.warningHistory } := by
  induction warnings generalizing m with
  | nil => rfl
  | cons w warnings ih =>
    have hsame : { w with acknowledged := false } = w := by
      rw [← h w List.mem_cons_self]
    rw [List.foldl_cons, ih _ fun w' hmem => h w' (List.mem_cons_of_mem w hmem), addToHistory_eq,
      hsame]
    rfl

theorem trigger_mem (now : Parameter → ℕ) (w : Warning) :
    trigger w ∈ (m.checkWarnings now).2 ↔
      ∃ w' ∈ arrivals Warning.parameter m.activeWarnings (m.newWarnings now),
        trigger w' = trigger w := by
  change _ ∈ List.flatMap signalsOf (arrivals _ _ _) ++ List.map _ _ ↔ _
  rw [List.mem_append, List.mem_flatMap]
  constructor
  · rintro (⟨w', hw', hsignal⟩ | hcleared)
    · refine ⟨w', hw', ?_⟩
      unfold signalsOf at hsignal
      rcases List.mem_cons.mp hsignal with htrigger | halert
      · exact htrigger.symm
      · split_ifs at halert <;> simp [trigger] at halert
    · simp [trigger] at hcleared
  · rintro ⟨w', hw', htrigger⟩
    refine .inl ⟨w', hw', ?_⟩
    rw [← htrigger]
    exact List.mem_cons_self

theorem triggered_checkWarnings (now : Parameter → ℕ) :
    m.triggered (.checkWarnings now) =
      arrivals Warning.parameter m.activeWarnings (m.newWarnings now) := by
  rw [triggered, arrivals]
  apply List.filter_congr
  intro w hw
  rw [Bool.eq_iff_iff, decide_eq_true_eq, trigger_mem, Bool.not_eq_true']
  constructor
  · rintro ⟨w', hw', htrigger⟩
    obtain ⟨-, hlisted⟩ := (mem_arrivals _).mp hw'
    have hparameter : w'.parameter = w.parameter := by
      unfold trigger at htrigger
      injection htrigger
    rwa [← hparameter]
  · intro hlisted
    exact ⟨w, (mem_arrivals _).mpr ⟨hw, hlisted⟩, rfl⟩

theorem foldl_max_eq (levels : List ℕ) : levels.foldl max 0 = levels.max?.getD 0 := by
  rw [List.foldl_max, Nat.zero_max]

theorem checkWarnings_eq (now : Parameter → ℕ) :
    (m.checkWarnings now).1 =
      { m with
        levels := m.newLevels
        highestSeverity := ((m.newWarnings now).map fun w => w.severity.level).max?.getD 0
        activeWarnings := m.newWarnings now
        warningHistory :=
          (m.triggered (.checkWarnings now)).foldl
            (fun history w => push m.maxHistorySize w history) m.warningHistory } := by
  have hfresh : ∀ w ∈ arrivals Warning.parameter m.activeWarnings (m.newWarnings now),
      w.acknowledged = false := by
    intro w hw
    obtain ⟨hnew, -⟩ := (mem_arrivals _).mp hw
    rw [((m.mem_newWarnings now w).mp hnew).2]
  rw [triggered_checkWarnings, checkWarnings, processWarningChanges, ← foldl_max_eq]
  dsimp only
  rw [foldl_addToHistory _ _ hfresh]

end Check

section Runs

variable {maxHistorySize : ℕ} {s : Recorded R}

theorem setThreshold_frame (m : WarningManager R) (parameter type : String) (value : R) :
    (m.setThreshold parameter type value).maxHistorySize = m.maxHistorySize ∧
      (m.setThreshold parameter type value).activeWarnings = m.activeWarnings ∧
      (m.setThreshold parameter type value).highestSeverity = m.highestSeverity ∧
      (m.setThreshold parameter type value).warningHistory = m.warningHistory := by
  unfold setThreshold
  split <;> exact ⟨rfl, rfl, rfl, rfl⟩

theorem acknowledgeWarning_levels (m : WarningManager R) (parameter : String) :
    ((m.acknowledgeWarning parameter).activeWarnings.map fun w => w.severity.level) =
      m.activeWarnings.map fun w => w.severity.level := by
  unfold acknowledgeWarning
  dsimp only
  rw [map_modify_of_eq]
  intro w
  rfl

theorem booked_checkWarnings (now : Parameter → ℕ)
    (hsize : s.manager.maxHistorySize = maxHistorySize) (h : Booked maxHistorySize s) :
    (s.next (.checkWarnings now)).manager.maxHistorySize = maxHistorySize ∧
      Booked maxHistorySize (s.next (.checkWarnings now)) := by
  have hcheck : s.next (.checkWarnings now) =
      { manager := (s.manager.checkWarnings now).1
        sinceCleared := s.sinceCleared ++ s.manager.triggered (.checkWarnings now) } := rfl
  refine ⟨?_, s.manager.distinct_next h.distinct, ?_, ?_⟩
  · rw [hcheck, checkWarnings_eq]
    exact hsize
  · rw [hcheck, checkWarnings_eq]
  · rw [hcheck, checkWarnings_eq]
    dsimp only
    rw [h.history, hsize, foldl_push, List.reverse_append]

theorem booked_next (op : Op R) (hsize : s.manager.maxHistorySize = maxHistorySize)
    (h : Booked maxHistorySize s) :
    (s.next op).manager.maxHistorySize = maxHistorySize ∧ Booked maxHistorySize (s.next op) := by
  have hhighest := h.highest
  have hdistinct' : ((s.manager.next op).activeWarnings.map Warning.parameter).Nodup :=
    s.manager.distinct_next h.distinct
  -- only a check triggers a warning
  have hnothing : s.manager.triggered op = [] →
      s.manager.warningHistory =
        (s.sinceCleared ++ s.manager.triggered op).reverse.take maxHistorySize := by
    intro hnone
    rw [hnone, List.append_nil, h.history]
  cases op with
  | checkWarnings now => exact booked_checkWarnings now hsize h
  | acknowledgeWarning parameter =>
    have hlevels := s.manager.acknowledgeWarning_levels parameter
    refine ⟨hsize, hdistinct', ?_, hnothing rfl⟩
    exact hhighest.trans (congrArg (fun levels => levels.max?.getD 0) hlevels.symm)
  | clearAllWarnings => exact ⟨hsize, hdistinct', rfl, hnothing rfl⟩
  | clearHistory => exact ⟨hsize, hdistinct', hhighest, (List.take_nil ..).symm⟩
  | setInputs inputs => exact ⟨hsize, hdistinct', hhighest, hnothing rfl⟩
  | setThreshold parameter type value =>
    obtain ⟨hsize', hactive, hhighest', hhistory'⟩ :=
      s.manager.setThreshold_frame parameter type value
    refine ⟨hsize'.trans hsize, hdistinct', ?_, hhistory'.trans (hnothing rfl)⟩
    refine hhighest'.trans (hhighest.trans ?_)
    exact congrArg (fun ws : List Warning => (ws.map fun w => w.severity.level).max?.getD 0)
      hactive.symm

/-- After every operation of every run. -/
theorem booked (maxHistorySize : ℕ) (ops : List (Op R)) :
    Booked maxHistorySize (recorded maxHistorySize ops) := by
  have hrun : ∀ s : Recorded R, ∀ op,
      s.manager.maxHistorySize = maxHistorySize ∧ Booked maxHistorySize s →
        (s.next op).manager.maxHistorySize = maxHistorySize ∧ Booked maxHistorySize (s.next op) :=
    fun s op h => booked_next op h.1 h.2
  refine (run_invariant Recorded.next _ hrun ?_ ops).2
  exact ⟨rfl, List.nodup_nil, rfl, (List.take_nil ..).symm⟩

end Runs

end SpeeduinoDash.WarningManager
