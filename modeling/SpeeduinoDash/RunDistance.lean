import Mathlib.Tactic.Linarith
import SpeeduinoDash.Lib.Runs
import SpeeduinoDash.Lib.WrapClock
import SpeeduinoDash.PerformanceMeter

set_option autoImplicit false

/-!
# The distance of a run

The trace keeps the samples of the speed since the launch, the newest first. On a clock past all
that 32 bits hold, no sample of a run passes the sanity check, and nothing is integrated.
-/
namespace SpeeduinoDash
open Lib.Runs Lib.WrapClock

namespace PerformanceMeter

/-- A reading of the speed that its handler takes. -/
structure Sample where
  time : ℤ
  speed : ℚ
deriving DecidableEq

/-- Meters between two samples. -/
def between (newer older : Sample) : ℚ :=
  (newer.speed + older.speed) / 2 / 3.6 * ((newer.time - older.time) / 1000)

def trapezoid : List Sample → ℚ
  | newer :: older :: rest => trapezoid (older :: rest) + between newer older
  | _ => 0

def firstReaching (distance : ℚ) : List Sample → Option Sample
  | [] => none
  | sample :: rest =>
    (firstReaching distance rest).or
      (if distance ≤ trapezoid (sample :: rest) then some sample else none)

theorem between_eq_zero_iff (newer older : Sample) :
    between newer older = 0 ↔ (newer.speed + older.speed) * (newer.time - older.time) = 0 := by
  unfold between
  rw [mul_eq_zero, mul_eq_zero]
  norm_num

/-- From a late reading it is more than a second to any that is stored. -/
theorem not_timely {s : PerformanceMeter} {now past : ℤ} (hlate : 2 ^ 32 ≤ now)
    (h : s.lastUpdateTime = toInt32 past) : ¬ s.Timely now := by
  rintro ⟨-, hsecond⟩
  have hgap : 1000 ≤ now - s.lastUpdateTime := by
    have hpast := toInt32_lt past
    rw [h]
    omega
  have hgap' : (1000 : ℚ) ≤ now - s.lastUpdateTime := by exact_mod_cast hgap
  unfold deltaTime at hsecond
  rw [div_lt_one (by norm_num)] at hsecond
  exact absurd hsecond (not_lt.mpr hgap')

section Late

variable {s : PerformanceMeter} {now : ℤ} (ended : ℤ)

/-- While running, a late sample leaves its time and speed and nothing else. -/
theorem track_late (hlate : 2 ^ 32 ≤ now) (hrunning : s.runState = .running)
    (hdistance : s.distanceTraveled = 0) {past : ℤ} (hlast : s.lastUpdateTime = toInt32 past) :
    (s.track toInt32 now ended).settle =
      { s with lastSpeed := s.speed, lastUpdateTime := toInt32 now } := by
  have hmeasure : s.measure toInt32 now ended = s := if_neg (not_timely hlate hlast)
  have hkept : s.track toInt32 now ended =
      { s with lastSpeed := s.speed, lastUpdateTime := toInt32 now } := by
    unfold track abort
    rw [if_pos hrunning, hmeasure, if_neg]
    rw [hdistance]
    norm_num
  rw [hkept]
  exact if_neg (by simp [hrunning])

theorem onSpeedChanged_running (hlate : 2 ^ 32 ≤ now) (hrunning : s.runState = .running)
    (hdistance : s.distanceTraveled = 0) {past : ℤ} (hlast : s.lastUpdateTime = toInt32 past) :
    s.onSpeedChanged toInt32 now ended =
      { s with lastSpeed := s.speed, lastUpdateTime := toInt32 now } := by
  have hstage : s.autoStage = s := if_neg (by simp [hrunning])
  have hlaunch : s.launch toInt32 now = s := if_neg (not_launches_of_running hrunning)
  unfold onSpeedChanged
  rw [hstage, hlaunch]
  exact track_late ended hlate hrunning hdistance hlast

theorem onSpeedChanged_launches (hlate : 2 ^ 32 ≤ now) (h : s.autoStage.Launches) :
    s.onSpeedChanged toInt32 now ended =
      { s with
        runState := .running
        runStartTime := toInt32 now
        lastUpdateTime := toInt32 now
        lastSpeed := s.speed
        distanceTraveled := 0 } := by
  have hlaunch : s.autoStage.launch toInt32 now =
      { s with
        runState := .running
        runStartTime := toInt32 now
        lastUpdateTime := toInt32 now
        lastSpeed := 0
        distanceTraveled := 0 } := by
    unfold launch
    rw [if_pos h]
    rcases autoStage_eq s with hstage | hstage <;> rw [hstage]
  unfold onSpeedChanged
  rw [hlaunch]
  exact track_late ended hlate rfl rfl rfl

theorem onSpeedChanged_still (h : ¬ s.autoStage.Launches) (hrunning : s.runState ≠ .running) :
    s.onSpeedChanged toInt32 now ended = s.autoStage.settle := by
  have hlaunch : s.autoStage.launch toInt32 now = s.autoStage := if_neg h
  have hstill : s.autoStage.runState ≠ .running := by
    rcases autoStage_eq s with hstage | hstage <;> rw [hstage]
    · exact hrunning
    · exact nofun
  have htrack : s.autoStage.track toInt32 now ended = s.autoStage := if_neg hstill
  unfold onSpeedChanged
  rw [hlaunch, htrack]

theorem staged_settle (s : PerformanceMeter) :
    ∃ state, s.autoStage.settle = { s with runState := state } ∧
      (s.runState ≠ .running → s.runState ≠ .completed → state ≠ .completed ∧ state ≠ .running) := by
  rcases settle_eq s.autoStage with hsettle | hsettle <;>
    rcases autoStage_eq s with hstage | hstage
  · exact ⟨s.runState, hsettle.trans hstage, fun hrunning hcompleted => ⟨hcompleted, hrunning⟩⟩
  · exact ⟨.staging, hsettle.trans hstage, fun _ _ => ⟨nofun, nofun⟩⟩
  · rw [hsettle, hstage]
    exact ⟨.idle, rfl, fun _ _ => ⟨nofun, nofun⟩⟩
  · rw [hsettle, hstage]
    exact ⟨.idle, rfl, fun _ _ => ⟨nofun, nofun⟩⟩

end Late

structure RunTrace where
  meter : PerformanceMeter
  launchedAt : ℤ := 0
  samples : List Sample := []

namespace RunTrace

section Steps

variable (t : RunTrace)

def staged (speed : ℚ) : PerformanceMeter := { t.meter with speed := speed }.autoStage

def sampled (now : ℤ) (speed : ℚ) : RunTrace :=
  if speed = t.meter.speed then t
  else if (t.staged speed).Launches then { t with launchedAt := now, samples := [⟨now, speed⟩] }
  else if t.meter.runState = .running then { t with samples := ⟨now, speed⟩ :: t.samples }
  else t

def step (op : Op) : RunTrace :=
  match op with
  | .speed now _ speed => { t.sampled now speed with meter := t.meter.step toInt32 op }
  | _ => { t with meter := t.meter.step toInt32 op }

theorem step_meter (op : Op) : (t.step op).meter = t.meter.step toInt32 op := by
  cases op <;> rfl

def expected (m : Milestone) : Mark :=
  match firstReaching m.target t.samples with
  | some sample => ⟨sample.time - t.launchedAt, sample.speed, true⟩
  | none => {}

/-- The distance is the integral, and so are the results at the distances. -/
structure Integrated : Prop where
  distance : t.meter.runState = .running → t.meter.distanceTraveled = trapezoid t.samples
  marks : t.meter.runState = .running ∨ t.meter.runState = .completed →
    ∀ m ∈ Milestone.distances, t.meter.marks m = t.expected m

/-- A sample while running adds nothing to the integral: the clock stands still, or the speed is
    the opposite of the one before. -/
def AddsNothing (op : Op) : Prop :=
  ∀ now ended speed, op = .speed now ended speed → speed ≠ t.meter.speed →
    t.meter.runState = .running →
      ∀ last ∈ t.samples.head?, (speed + last.speed) * (now - last.time) = 0

structure Still : Prop where
  marks : t.meter.marks = fun _ => {}
  state : t.meter.runState ≠ .completed
  distance : t.meter.distanceTraveled = 0
  stored : t.meter.runState = .running → ∃ past, t.meter.lastUpdateTime = toInt32 past
  launched : t.meter.runState = .running → t.samples ≠ []
  trapezoid : trapezoid t.samples = 0
  reaching : ∀ m : Milestone, firstReaching m.target t.samples = none

end Steps

variable {t : RunTrace}

theorem Still.integrated (h : t.Still) : t.Integrated := by
  refine ⟨fun _ => h.distance.trans h.trapezoid.symm, fun _ m _ => ?_⟩
  unfold expected
  rw [h.marks, h.reaching m]

theorem still_step_other {op : Op} (h : t.Still) (hop : ∀ now ended v, op ≠ .speed now ended v) :
    (t.step op).Still := by
  obtain ⟨hmarks, hstate, hdistance, hstored, hlaunched, htrapezoid, hreaching⟩ := h
  cases op with
  | speed now ended v => exact absurd rfl (hop now ended v)
  | resetRun => exact ⟨rfl, nofun, rfl, nofun, nofun, htrapezoid, hreaching⟩
  | resetAll => exact ⟨rfl, nofun, rfl, nofun, nofun, htrapezoid, hreaching⟩
  | stageRun =>
    unfold step
    dsimp only
    rcases stageRun_eq t.meter with hsame | hstaged
    · rw [PerformanceMeter.step, hsame]
      exact ⟨hmarks, hstate, hdistance, hstored, hlaunched, htrapezoid, hreaching⟩
    · rw [PerformanceMeter.step, hstaged]
      exact ⟨rfl, nofun, rfl, nofun, nofun, htrapezoid, hreaching⟩
  | _ => exact ⟨hmarks, hstate, hdistance, hstored, hlaunched, htrapezoid, hreaching⟩

theorem firstReaching_cons {m : Milestone} {sample : Sample} {samples : List Sample}
    (hzero : trapezoid (sample :: samples) = 0) (h : firstReaching m.target samples = none) :
    firstReaching m.target (sample :: samples) = none := by
  unfold firstReaching
  rw [h, hzero, if_neg (not_le.mpr m.target_pos)]
  rfl

theorem still_sample_idle {now : ℤ} (ended : ℤ) {speed : ℚ} (hlate : 2 ^ 32 ≤ now) (h : t.Still)
    (hchanged : speed ≠ t.meter.speed) (hrunning : t.meter.runState ≠ .running) :
    (t.step (.speed now ended speed)).Still := by
  obtain ⟨hmarks, hstate, hdistance, -, -, htrapezoid, hreaching⟩ := h
  unfold step sampled
  dsimp only
  rw [if_neg hchanged, PerformanceMeter.step, if_neg hchanged]
  by_cases hlaunches : (t.staged speed).Launches
  · rw [if_pos hlaunches, onSpeedChanged_launches ended hlate hlaunches]
    refine ⟨hmarks, nofun, rfl, fun _ => ⟨now, rfl⟩, fun _ => nofun, rfl, fun m => ?_⟩
    exact firstReaching_cons rfl rfl
  · rw [if_neg hlaunches, if_neg hrunning, onSpeedChanged_still ended hlaunches hrunning]
    obtain ⟨state, hafter, hidle⟩ := staged_settle { t.meter with speed := speed }
    rw [hafter]
    obtain ⟨hcompleted, hstopped⟩ := hidle hrunning hstate
    exact ⟨hmarks, hcompleted, hdistance, fun hrun => absurd hrun hstopped,
      fun hrun => absurd hrun hstopped, htrapezoid, hreaching⟩

theorem sample_running {now ended : ℤ} {speed : ℚ} (hlate : 2 ^ 32 ≤ now) (h : t.Still)
    (hchanged : speed ≠ t.meter.speed) (hrunning : t.meter.runState = .running) :
    t.step (.speed now ended speed) =
      { t with
        meter := { t.meter with
          speed := speed, lastSpeed := speed, lastUpdateTime := toInt32 now }
        samples := ⟨now, speed⟩ :: t.samples } := by
  obtain ⟨past, hlast⟩ := h.stored hrunning
  have hstaged : t.staged speed = { t.meter with speed := speed } := if_neg (by simp [hrunning])
  have hlaunches : ¬ (t.staged speed).Launches := by
    rw [hstaged]
    exact not_launches_of_running hrunning
  unfold step sampled
  dsimp only
  have hafter := onSpeedChanged_running (s := { t.meter with speed := speed }) ended hlate hrunning
    h.distance hlast
  rw [if_neg hchanged, if_neg hlaunches, if_pos hrunning, PerformanceMeter.step, if_neg hchanged,
    hafter]

theorem sample_running_iff {now ended : ℤ} {speed : ℚ} (hlate : 2 ^ 32 ≤ now) (h : t.Still)
    (hchanged : speed ≠ t.meter.speed) (hrunning : t.meter.runState = .running) :
    ((t.step (.speed now ended speed)).Integrated ↔ t.AddsNothing (.speed now ended speed)) ∧
      (t.AddsNothing (.speed now ended speed) → (t.step (.speed now ended speed)).Still) := by
  rw [sample_running hlate h hchanged hrunning]
  obtain ⟨last, rest, hsamples⟩ := List.exists_cons_of_ne_nil (h.launched hrunning)
  have hgrows : trapezoid (⟨now, speed⟩ :: t.samples) = between ⟨now, speed⟩ last := by
    have hzero := h.trapezoid
    rw [hsamples] at hzero ⊢
    exact (congrArg (· + _) hzero).trans (zero_add _)
  have hnothing : t.AddsNothing (.speed now ended speed) ↔
      trapezoid (⟨now, speed⟩ :: t.samples) = 0 := by
    rw [hgrows, between_eq_zero_iff]
    unfold AddsNothing
    rw [hsamples]
    constructor
    · intro hadds
      exact hadds now ended speed rfl hchanged hrunning last rfl
    · rintro hadds _ _ _ ⟨⟩ - - _ ⟨⟩
      exact hadds
  have hstill : t.AddsNothing (.speed now ended speed) →
      (RunTrace.mk { t.meter with
          speed := speed, lastSpeed := speed, lastUpdateTime := toInt32 now }
        t.launchedAt (⟨now, speed⟩ :: t.samples)).Still := by
    intro hadds
    have hzero := hnothing.mp hadds
    refine ⟨h.marks, h.state, h.distance, fun _ => ⟨now, rfl⟩, fun _ => nofun, hzero, fun m => ?_⟩
    exact firstReaching_cons hzero (h.reaching m)
  refine ⟨⟨fun hintegrated => ?_, fun hadds => (hstill hadds).integrated⟩, hstill⟩
  exact hnothing.mpr ((hintegrated.distance hrunning).symm.trans h.distance)

/-- The clock is past all that 32 bits hold. -/
def Late : Op → Prop
  | .speed now _ _ => 2 ^ 32 ≤ now
  | _ => True

theorem step_keeps {op : Op} (hlate : Late op) (h : t.Still) :
    ((t.step op).Integrated ↔ t.AddsNothing op) ∧ (t.AddsNothing op → (t.step op).Still) := by
  by_cases hsample : ∃ now ended speed, op = .speed now ended speed
  · obtain ⟨now, ended, speed, rfl⟩ := hsample
    by_cases hsame : speed = t.meter.speed
    · have hnone : t.step (.speed now ended speed) = t := by
        unfold step sampled
        dsimp only
        rw [if_pos hsame, PerformanceMeter.step, if_pos hsame]
      rw [hnone]
      refine ⟨iff_of_true h.integrated ?_, fun _ => h⟩
      rintro _ _ _ ⟨⟩ hchanged
      exact absurd hsame hchanged
    · by_cases hrunning : t.meter.runState = .running
      · exact sample_running_iff hlate h hsame hrunning
      · have hstill := still_sample_idle ended hlate h hsame hrunning
        refine ⟨iff_of_true hstill.integrated ?_, fun _ => hstill⟩
        rintro _ _ _ ⟨⟩ - hrun
        exact absurd hrun hrunning
  · have hother : ∀ now ended v, op ≠ .speed now ended v :=
      fun now ended v h => hsample ⟨now, ended, v, h⟩
    have hstill := still_step_other h hother
    refine ⟨iff_of_true hstill.integrated ?_, fun _ => hstill⟩
    intro now ended speed hop
    exact absurd hop (hother now ended speed)

/-- The distance is the integral of the samples in every state of a run exactly where every sample
    that is taken while running adds nothing to it. -/
theorem distance_is_integral_iff (s : PerformanceMeter) (ops : List Op) (h : ∀ op ∈ ops, Late op) :
    EveryState step Integrated { meter := s.resetAll } ops ↔
      EveryStep step AddsNothing { meter := s.resetAll } ops := by
  have hstart : Still { meter := s.resetAll } :=
    ⟨rfl, nofun, rfl, nofun, nofun, rfl, fun _ => rfl⟩
  refine everyState_iff_of Still (fun _ op => Late op) ?_ ?_ ?_ hstart hstart.integrated
  · intro pre op hpre
    exact h op (hpre.subset (by simp))
  · intro t op hlate hstill _ hadds
    exact (step_keeps hlate hstill).2 hadds
  · intro t op hlate hstill _
    exact (step_keeps hlate hstill).1

/-- Each sample comes less than a second after the one before. -/
def Dense (ops : List Op) : Prop :=
  (ops.filterMap fun | .speed now _ _ => some now | _ => none).IsChain
    fun earlier later => earlier < later ∧ later < earlier + 1000

def shortRun : List Op :=
  [.stageRun, .speed 1700000000000 1700000000000 10, .speed 1700000000500 1700000000500 20]

theorem late_shortRun : ∀ op ∈ shortRun, Late op := by
  simp [shortRun, Late]

theorem distance_is_integral_shortRun :
    EveryState step Integrated { meter := resetAll {} } shortRun ↔
      EveryStep step AddsNothing { meter := resetAll {} } shortRun :=
  distance_is_integral_iff {} shortRun late_shortRun

theorem distance_not_integral :
    ¬ ∀ s ops, (∀ op ∈ ops, Late op) → Dense ops →
      EveryState step Integrated { meter := resetAll s } ops := by
  intro h
  have hintegrated := h {} shortRun late_shortRun (by simp [Dense, shortRun]) _ List.prefix_rfl
  have hdistance := hintegrated.distance (by decide +kernel)
  revert hdistance
  decide +kernel

end RunTrace

end PerformanceMeter

end SpeeduinoDash
