import SpeeduinoDash.Lib.Runs
import SpeeduinoDash.Lib.WrapClock
import SpeeduinoDash.PerformanceMeter

set_option autoImplicit false

/-!
# Results of an earlier run

The trace keeps whether a run has reached a milestone since the results were last cleared.
-/
namespace SpeeduinoDash
open Lib.Runs Lib.WrapClock

namespace PerformanceMeter

def Unmarked (s : PerformanceMeter) : Prop := ∀ m, (s.marks m).hit = false → s.marks m = {}

structure Checked (s s' : PerformanceMeter) (checks : List Milestone) : Prop where
  measured : s'.measured = s.measured
  hit : ∀ m, (s'.marks m).hit = true ↔
    (s.marks m).hit = true ∨ (m ∈ checks ∧ m.target ≤ s.measured m)
  unmarked : s.Unmarked → s'.Unmarked

theorem Checked.trans {s s' s'' : PerformanceMeter} {checks checks' : List Milestone}
    (h : Checked s s' checks) (h' : Checked s' s'' checks') :
    Checked s s'' (checks ++ checks') := by
  refine ⟨h'.measured.trans h.measured, fun m => ?_, fun hs => h'.unmarked (h.unmarked hs)⟩
  rw [h'.hit, h.hit, h.measured, List.mem_append, or_and_right, or_assoc]

section Checks

variable (stored : ℤ → ℤ) (s : PerformanceMeter) (m : Milestone) (elapsedMs ended : ℤ)

theorem checked_record (h : s.Due m) : Checked s (s.record stored m elapsedMs) [m] := by
  have hself : ((s.record stored m elapsedMs).marks m).hit = true :=
    congrArg Mark.hit (Function.update_self m _ s.marks)
  have hother : ∀ n, n ≠ m → (s.record stored m elapsedMs).marks n = s.marks n :=
    fun n hn => Function.update_of_ne hn _ s.marks
  refine ⟨rfl, fun n => ?_, fun hunmarked n hn => ?_⟩
  · by_cases hsame : n = m
    · subst hsame
      exact iff_of_true hself (.inr ⟨List.mem_singleton_self n, h.2⟩)
    · rw [hother n hsame]
      refine ⟨.inl, ?_⟩
      rintro (hhit | ⟨hmem, -⟩)
      · exact hhit
      · exact absurd (List.mem_singleton.mp hmem) hsame
  · by_cases hsame : n = m
    · subst hsame
      cases hself.symm.trans hn
    · rw [hother n hsame] at hn ⊢
      exact hunmarked n hn

theorem checked_not_due (h : ¬ s.Due m) : Checked s s [m] := by
  refine ⟨rfl, fun n => ⟨.inl, ?_⟩, id⟩
  rintro (hhit | ⟨hmem, hreached⟩)
  · exact hhit
  · obtain rfl := List.mem_singleton.mp hmem
    by_contra hhit
    exact h ⟨Bool.not_eq_true _ ▸ hhit, hreached⟩

theorem checked_check : Checked s (s.check stored m elapsedMs) [m] := by
  unfold check
  split_ifs with hdue
  · exact checked_record stored s m elapsedMs hdue
  · exact checked_not_due s m hdue

theorem checked_checkQuarter :
    Checked s (s.checkQuarter stored elapsedMs ended) [.quarterMile] := by
  unfold checkQuarter
  split_ifs with hdue
  · obtain ⟨hmeasured, hhit, hunmarked⟩ := checked_record stored s .quarterMile elapsedMs hdue
    exact ⟨hmeasured, hhit, hunmarked⟩
  · exact checked_not_due s .quarterMile hdue

theorem checked_checkMilestones :
    Checked s (s.checkMilestones stored elapsedMs ended)
      [.sixtyFeet, .eighthMile, .quarterMile, .mph60, .kmh100] :=
  ((((checked_check stored s .sixtyFeet elapsedMs).trans (checked_check stored _ _ _)).trans
    (checked_checkQuarter stored _ _ _)).trans (checked_check stored _ _ _)).trans
      (checked_check stored _ _ _)

/-- 60 feet or 60 mph. -/
def Reaches : Prop :=
  Milestone.sixtyFeet.target ≤ s.distanceTraveled ∨ Milestone.mph60.target ≤ s.speed

instance : Decidable s.Reaches :=
  inferInstanceAs (Decidable (_ ∨ _))

theorem reaches_iff : s.Reaches ↔ ∃ m : Milestone, m.target ≤ s.measured m := by
  constructor
  · rintro (hdistance | hspeed)
    · exact ⟨.sixtyFeet, hdistance⟩
    · exact ⟨.mph60, hspeed⟩
  · rintro ⟨m, hm⟩
    cases m with
    | sixtyFeet => exact .inl hm
    | eighthMile => exact .inl (le_trans (by norm_num [Milestone.target]) hm)
    | quarterMile => exact .inl (le_trans (by norm_num [Milestone.target]) hm)
    | mph60 => exact .inr hm
    | kmh100 => exact .inr (le_trans (by norm_num [Milestone.target]) hm)

theorem hit_checkMilestones :
    (∃ m, ((s.checkMilestones stored elapsedMs ended).marks m).hit = true) ↔
      (∃ m, (s.marks m).hit = true) ∨ s.Reaches := by
  rw [reaches_iff, ← exists_or]
  refine exists_congr fun m => ?_
  rw [(checked_checkMilestones stored s elapsedMs ended).hit m]
  refine or_congr_right (and_iff_right ?_)
  cases m <;> simp

end Checks

section Handler

variable (stored : ℤ → ℤ) (s : PerformanceMeter) (now ended : ℤ)

def launched : PerformanceMeter := s.autoStage.launch stored now

def Measures : Prop := (s.launched stored now).runState = .running ∧ (s.launched stored now).Timely now

instance : Decidable (s.Measures stored now) :=
  inferInstanceAs (Decidable (_ ∧ _))

theorem marks_launched : (s.launched stored now).marks = s.marks := by
  have hstage : s.autoStage.marks = s.marks := by
    rcases autoStage_eq s with hstage | hstage <;> rw [hstage]
  unfold launched launch
  split_ifs
  · exact hstage
  · exact hstage

theorem marks_settle : s.settle.marks = s.marks := by
  rcases settle_eq s with hsettle | hsettle <;> rw [hsettle]

theorem marks_abort : s.abort.marks = s.marks := by
  unfold abort
  split_ifs <;> rfl

theorem marks_onSpeedChanged :
    (s.onSpeedChanged stored now ended).marks =
      if s.Measures stored now then
        (((s.launched stored now).integrate now).checkMilestones stored
          (now - (s.launched stored now).runStartTime) ended).marks
      else s.marks := by
  change ((s.launched stored now).track stored now ended).settle.marks = _
  rw [marks_settle]
  unfold track
  by_cases hrunning : (s.launched stored now).runState = .running
  · rw [if_pos hrunning, marks_abort]
    change ((s.launched stored now).measure stored now ended).marks = _
    unfold measure
    by_cases htimely : (s.launched stored now).Timely now
    · rw [if_pos htimely, if_pos ⟨hrunning, htimely⟩]
    · rw [if_neg htimely, if_neg fun h => htimely h.2, marks_launched]
  · rw [if_neg hrunning, if_neg fun h => hrunning h.1, marks_launched]

end Handler

structure ResultsTrace where
  meter : PerformanceMeter
  reached : Bool := false

namespace ResultsTrace

section Steps

variable (stored : ℤ → ℤ) (t : ResultsTrace)

def clears : Op → Bool
  | .resetRun => true
  | .resetAll => true
  | .stageRun => decide (t.meter.runState = .idle ∧ t.meter.speed < t.meter.launchThreshold)
  | _ => false

def reaches : Op → Bool
  | .speed now _ speed =>
    let changed := { t.meter with speed := speed }
    decide (speed ≠ t.meter.speed ∧ changed.Measures stored now ∧
      ((changed.launched stored now).integrate now).Reaches)
  | _ => false

def step (op : Op) : ResultsTrace where
  meter := t.meter.step stored op
  reached := (t.reached && !t.clears op) || t.reaches stored op

def entry : Op → Option PerformanceMeter
  | .speed now _ speed =>
    let changed := { t.meter with speed := speed }
    if speed ≠ t.meter.speed ∧ changed.autoStage.Launches then some (changed.launched stored now)
    else none
  | _ => none

/-- No result is there where a run begins. -/
def Isolated (op : Op) : Prop := ∀ entered ∈ t.entry stored op, entered.marks = fun _ => {}

/-- No milestone was reached since the results were last cleared. -/
def EntersClear (op : Op) : Prop := (t.entry stored op).isSome = true → t.reached = false

structure Coherent : Prop where
  unmarked : t.meter.Unmarked
  reached : t.reached = true ↔ ∃ m, (t.meter.marks m).hit = true

end Steps

variable {stored : ℤ → ℤ} {t : ResultsTrace}

theorem coherent_of_clear (h : t.meter.marks = fun _ => {}) (hreached : t.reached = false) :
    t.Coherent := by
  constructor
  · intro m _
    rw [h]
  · rw [hreached, h]
    simp

theorem Coherent.of_same {t' : ResultsTrace} (h : t.Coherent)
    (hmarks : t'.meter.marks = t.meter.marks) (hreached : t'.reached = t.reached) :
    t'.Coherent := by
  obtain ⟨hunmarked, hhit⟩ := h
  unfold Unmarked at hunmarked
  constructor
  · unfold Unmarked
    rw [hmarks]
    exact hunmarked
  · rw [hreached, hmarks]
    exact hhit

theorem Coherent.clear_iff (h : t.Coherent) :
    (t.meter.marks = fun _ => {}) ↔ t.reached = false := by
  rw [← Bool.not_eq_true, h.reached, not_exists]
  constructor
  · intro hclear m
    rw [hclear]
    exact Bool.false_ne_true
  · intro hnone
    funext m
    exact h.unmarked m (Bool.not_eq_true _ ▸ hnone m)

theorem coherent_sample {now ended : ℤ} {speed : ℚ} (hchanged : speed ≠ t.meter.speed)
    (h : t.Coherent) : (t.step stored (.speed now ended speed)).Coherent := by
  have hmarks : (t.step stored (.speed now ended speed)).meter.marks =
      (onSpeedChanged stored { t.meter with speed := speed } now ended).marks :=
    congrArg PerformanceMeter.marks (if_neg hchanged)
  have hreached : (t.step stored (.speed now ended speed)).reached =
      (t.reached || t.reaches stored (.speed now ended speed)) :=
    congrArg (· || _) (Bool.and_true _)
  rw [marks_onSpeedChanged] at hmarks
  by_cases hmeasures : Measures stored { t.meter with speed := speed } now
  · rw [if_pos hmeasures] at hmarks
    obtain ⟨integrated, hintegrated⟩ : ∃ integrated, integrated =
      (launched stored { t.meter with speed := speed } now).integrate now := ⟨_, rfl⟩
    have hbefore : integrated.marks = t.meter.marks := by
      rw [hintegrated]
      exact marks_launched stored { t.meter with speed := speed } now
    have hreaches : t.reaches stored (.speed now ended speed) = true ↔ integrated.Reaches := by
      rw [hintegrated]
      exact decide_eq_true_iff.trans
        (and_iff_right hchanged |>.trans (and_iff_right hmeasures))
    rw [← hintegrated] at hmarks
    constructor
    · unfold Unmarked
      rw [hmarks]
      refine (checked_checkMilestones stored integrated _ ended).unmarked ?_
      unfold Unmarked
      rw [hbefore]
      exact h.unmarked
    · rw [hreached, Bool.or_eq_true, h.reached, hreaches, hmarks, hit_checkMilestones, hbefore]
  · rw [if_neg hmeasures] at hmarks
    refine h.of_same hmarks ?_
    rw [hreached]
    simp [reaches, hmeasures]

theorem coherent_step (op : Op) (h : t.Coherent) : (t.step stored op).Coherent := by
  cases op with
  | speed now ended speed =>
    by_cases hsame : speed = t.meter.speed
    · refine h.of_same ?_ (by simp [step, clears, reaches, hsame])
      exact congrArg PerformanceMeter.marks (if_pos hsame)
    · exact coherent_sample hsame h
  | resetRun => exact coherent_of_clear rfl (by simp [step, clears, reaches])
  | resetAll => exact coherent_of_clear rfl (by simp [step, clears, reaches])
  | stageRun =>
    by_cases hclears : t.meter.runState = .idle ∧ t.meter.speed < t.meter.launchThreshold
    · refine coherent_of_clear ?_ (by simp [step, clears, reaches, hclears])
      exact congrArg PerformanceMeter.marks (if_pos hclears)
    · refine h.of_same ?_ (by simp [step, clears, reaches, hclears])
      exact congrArg PerformanceMeter.marks (if_neg hclears)
  | rpm rpm => exact h.of_same rfl (by simp [step, clears, reaches])
  | launchThreshold threshold => exact h.of_same rfl (by simp [step, clears, reaches])
  | rpmThreshold threshold => exact h.of_same rfl (by simp [step, clears, reaches])
  | maxRunHistory n => exact h.of_same rfl (by simp [step, clears, reaches])

theorem isolated_iff (op : Op) (h : t.Coherent) :
    t.Isolated stored op ↔ t.EntersClear stored op := by
  unfold Isolated EntersClear
  cases hentry : t.entry stored op with
  | none => exact iff_of_true (fun _ hentered => nomatch hentered) (fun hsome => nomatch hsome)
  | some entered =>
    have hmarks : entered.marks = t.meter.marks := by
      cases op with
      | speed now ended speed =>
        dsimp only [entry] at hentry
        split_ifs at hentry
        cases hentry
        exact marks_launched stored { t.meter with speed := speed } now
      | _ => cases hentry
    rw [← h.clear_iff, ← hmarks]
    simp

/-- In every run, each entry into the running state finds no results exactly where no milestone was
    reached since they were last cleared. -/
theorem runs_isolated_iff (stored : ℤ → ℤ) (s : PerformanceMeter) (ops : List Op) :
    EveryStep (step stored) (Isolated stored) { meter := s.resetAll } ops ↔
      EveryStep (step stored) (EntersClear stored) { meter := s.resetAll } ops := by
  have hcoherent : ∀ pre, (run (step stored) { meter := s.resetAll } pre).Coherent := by
    intro pre
    refine run_invariant (step stored) Coherent ?_ (coherent_of_clear rfl rfl) pre
    intro t op
    exact coherent_step op
  refine forall_congr' fun pre => forall_congr' fun op => imp_congr_right fun _ => ?_
  exact isolated_iff op (hcoherent pre)

def firstRun : List Op :=
  [.stageRun, .speed 10000 10000 90, .speed 10900 10900 110, .speed 11800 11800 2, .rpm 3000,
    .speed 60000 60000 1]

/-- The second run is staged by the handler, and the results of the first are still there. -/
theorem result_of_earlier_run :
    ¬ ∀ s ops, EveryStep (step toInt32) (Isolated toInt32) { meter := resetAll s } ops := by
  intro h
  have hisolated := h {} (firstRun ++ [.speed 61000 61000 4]) firstRun _ List.prefix_rfl
  have hclear : ∀ entered ∈ (run (step toInt32) { meter := resetAll {} } firstRun).entry toInt32
      (.speed 61000 61000 4), (entered.marks .sixtyFeet).hit = false := by
    intro entered hentered
    rw [hisolated entered hentered]
  revert hclear
  decide +kernel

end ResultsTrace

end PerformanceMeter

end SpeeduinoDash
