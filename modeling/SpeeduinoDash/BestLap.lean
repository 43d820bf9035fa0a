import SpeeduinoDash.LapTimer

set_option autoImplicit false

/-!
# The best lap

The trace keeps the full reading of the clock at the start of the lap, and the laps since
`resetAll` with how long they took. The timer itself keeps 32 bits of the start.
-/
namespace SpeeduinoDash
open Lib.Runs Lib.WrapClock

namespace LapTimer

/-- A clock that rises from one event to the next, and is past all that 32 bits hold. -/
structure Rising (ops : List Op) : Prop where
  late : ∀ op ∈ ops, ∀ c ∈ op.readings, 2 ^ 32 ≤ c.lap
  within : ∀ op ∈ ops, ∀ c ∈ op.readings, c.sector ≤ c.lap ∧ c.lap ≤ c.start
  between : ops.Pairwise fun op op' =>
    ∀ c ∈ op.readings, ∀ c' ∈ op'.readings, c.start < c'.sector

structure TimedLap where
  number : ℤ
  duration : ℤ
deriving DecidableEq

structure LapTrace where
  timer : LapTimer
  startedAt : ℤ := 0
  laps : List TimedLap := []
deriving DecidableEq

namespace LapTrace

section Steps

variable (t : LapTrace)

def lap (now : ℤ) : TimedLap := ⟨t.timer.currentLapNumber, now - t.startedAt⟩

def changed (op : Op) : LapTrace :=
  { t with
    timer := t.timer.changed op
    laps := match op with
      | .resetAll => []
      | _ => t.laps }

def perform (p : Call × Readings) : LapTrace where
  timer := t.timer.perform toInt32 p
  startedAt := if p.1 = .startLap ∨ t.timer.completes p.1 = true then p.2.start else t.startedAt
  laps := if t.timer.completes p.1 = true then t.laps ++ [t.lap p.2.lap] else t.laps

def step (op : Op) : LapTrace :=
  match t.timer.call op with
  | none => t.changed op
  | some p => (t.changed op).perform p

theorem step_timer (op : Op) : (t.step op).timer = t.timer.step toInt32 op := by
  unfold step LapTimer.step
  cases t.timer.call op <;> rfl

/-- The best lap is a lap since `resetAll`, and none was faster. -/
def BestIsShortest : Prop :=
  t.laps ≠ [] →
    ⟨t.timer.bestLapNumber, t.timer.bestLapTime⟩ ∈ t.laps ∧
      ∀ lap ∈ t.laps, t.timer.bestLapTime ≤ lap.duration

/-- A first lap is shorter than 2 ^ 31 ms, and no later lap is shorter than the first. -/
def FirstIsShortest (duration : ℤ) : Prop :=
  match t.laps with
  | [] => duration < 2 ^ 31
  | first :: _ => first.duration ≤ duration

def CompletesNoShorter (op : Op) : Prop :=
  ∀ p, t.timer.call op = some p → t.timer.completes p.1 = true →
    t.FirstIsShortest (p.2.lap - t.startedAt)

/-- The timer while no lap was faster than the first. -/
structure Coherent : Prop where
  start : t.timer.isRunning = true → t.timer.lapStartTime = toInt32 t.startedAt
  none : t.laps = [] → t.timer.bestLapTime = 0
  first : ∀ first rest, t.laps = first :: rest →
    (0 < first.duration ∧ first.duration < 2 ^ 31) ∧
      t.timer.bestLapTime = first.duration ∧ t.timer.bestLapNumber = first.number

end Steps

variable {t : LapTrace}

def Better (t : LapTrace) (now : ℤ) : Prop :=
  t.timer.bestLapTime = 0 ∨ now - t.timer.lapStartTime < t.timer.bestLapTime

/-- A lap that ends leaves the start of the next one, and is the best where it is better. -/
theorem perform_completes {p : Call × Readings} (h : t.timer.completes p.1 = true) :
    (t.perform p).timer.lapStartTime = toInt32 p.2.start ∧
    (t.Better p.2.lap →
      (t.perform p).timer.bestLapTime = toInt32 (p.2.lap - t.timer.lapStartTime) ∧
      (t.perform p).timer.bestLapNumber = t.timer.currentLapNumber) ∧
    (¬ t.Better p.2.lap →
      (t.perform p).timer.bestLapTime = t.timer.bestLapTime ∧
      (t.perform p).timer.bestLapNumber = t.timer.bestLapNumber) := by
  obtain ⟨call, c⟩ := p
  unfold perform
  dsimp only
  rw [perform_of_completes toInt32 c h]
  rw [completeLap_of_running toInt32 c (running_ending toInt32 c h)]
  obtain ⟨times, sector, start, delta, hending⟩ := ending_eq toInt32 t.timer c call
  rw [hending]
  unfold Better checkBest
  refine ⟨?_, fun hbetter => ?_, fun hworse => ?_⟩
  · rfl
  · rw [if_pos hbetter]
    exact ⟨rfl, rfl⟩
  · rw [if_neg hworse]
    exact ⟨rfl, rfl⟩

theorem perform_not_completes {p : Call × Readings} (h : t.timer.completes p.1 = false)
    (hstart : t.timer.isRunning = true → t.timer.lapStartTime = toInt32 t.startedAt) :
    (t.perform p).laps = t.laps ∧
    (t.perform p).timer.bestLapTime = t.timer.bestLapTime ∧
    (t.perform p).timer.bestLapNumber = t.timer.bestLapNumber ∧
    ((t.perform p).timer.isRunning = true →
      (t.perform p).timer.lapStartTime = toInt32 (t.perform p).startedAt) := by
  obtain ⟨call, c⟩ := p
  have hlaps : (t.perform (call, c)).laps = t.laps := if_neg (by simp [h])
  have hstarted : call ≠ .startLap → (t.perform (call, c)).startedAt = t.startedAt :=
    fun hcall => if_neg (by simp [h, hcall])
  refine ⟨hlaps, ?_⟩
  change let after := t.timer.perform toInt32 (call, c)
    after.bestLapTime = _ ∧ after.bestLapNumber = _ ∧
      (after.isRunning = true → after.lapStartTime = _)
  rcases perform_of_not_completes toInt32 c h with
    ⟨rfl, hstarts⟩ | ⟨-, rfl, -, hrecords⟩ | ⟨hcall, -, hsame⟩
  · rw [hstarts]
    exact ⟨rfl, rfl, fun _ => rfl⟩
  · rw [hrecords, hstarted nofun]
    exact ⟨rfl, rfl, hstart⟩
  · rw [hsame, hstarted hcall]
    exact ⟨rfl, rfl, hstart⟩

theorem perform_first {p : Call × Readings} (h : t.timer.completes p.1 = true)
    (hcoherent : t.Coherent) (hrunning : t.timer.isRunning = true) (hlaps : t.laps = []) :
    (t.perform p).timer.bestLapTime = toInt32 (p.2.lap - t.startedAt) ∧
      (t.perform p).timer.bestLapNumber = t.timer.currentLapNumber := by
  obtain ⟨htime, hnumber⟩ := (perform_completes h).2.1 (.inl (hcoherent.none hlaps))
  rw [htime, hnumber, hcoherent.start hrunning, toInt32_elapsed]
  exact ⟨rfl, rfl⟩

theorem perform_later {p : Call × Readings} {first : TimedLap} {rest : List TimedLap}
    (h : t.timer.completes p.1 = true) (hlate : 2 ^ 32 ≤ p.2.lap) (hcoherent : t.Coherent)
    (hrunning : t.timer.isRunning = true) (hlaps : t.laps = first :: rest) :
    (t.perform p).timer.bestLapTime = first.duration ∧
      (t.perform p).timer.bestLapNumber = first.number := by
  obtain ⟨⟨hpos, hfits⟩, hbest, hfirst⟩ := hcoherent.first first rest hlaps
  have hworse : ¬ t.Better p.2.lap := by
    have hlong := toInt32_lt_elapsed hlate first.duration t.startedAt
    rw [(toInt32_eq_self_iff hpos.le).mpr hfits] at hlong
    unfold Better
    rw [hbest, hcoherent.start hrunning]
    omega
  obtain ⟨htime, hnumber⟩ := (perform_completes h).2.2 hworse
  rw [htime, hnumber]
  exact ⟨hbest, hfirst⟩

/-- A lap that ends keeps the best lap the shortest exactly where the first is the shortest. -/
theorem bestIsShortest_completes {p : Call × Readings} (h : t.timer.completes p.1 = true)
    (hlate : 2 ^ 32 ≤ p.2.lap) (hrises : t.startedAt < p.2.lap) (hcoherent : t.Coherent)
    (hbest : t.BestIsShortest) :
    (t.perform p).BestIsShortest ↔ t.FirstIsShortest (p.2.lap - t.startedAt) := by
  have hrunning := running_of_completes h
  have hdone : (t.perform p).laps = t.laps ++ [t.lap p.2.lap] := if_pos h
  unfold BestIsShortest FirstIsShortest
  rw [hdone]
  cases hlaps : t.laps with
  | nil =>
    obtain ⟨htime, hnumber⟩ := perform_first h hcoherent hrunning hlaps
    rw [htime, hnumber, ← toInt32_eq_self_iff (sub_nonneg.mpr hrises.le)]
    simp [lap]
    omega
  | cons first rest =>
    obtain ⟨htime, hnumber⟩ := perform_later h hlate hcoherent hrunning hlaps
    rw [htime, hnumber]
    obtain ⟨hmem, hmin⟩ := hbest (by simp [hlaps])
    rw [hlaps, (hcoherent.first first rest hlaps).2.1] at hmin
    constructor
    · intro hshortest
      exact (hshortest (by simp)).2 (t.lap p.2.lap) (by simp)
    · intro hfirst _
      refine ⟨List.mem_cons_self, fun lap hlap => ?_⟩
      rcases List.mem_append.mp hlap with hold | hnew
      · exact hmin lap hold
      · obtain rfl := List.mem_singleton.mp hnew
        exact hfirst

theorem coherent_completes {p : Call × Readings} (h : t.timer.completes p.1 = true)
    (hlate : 2 ^ 32 ≤ p.2.lap) (hrises : t.startedAt < p.2.lap) (hcoherent : t.Coherent)
    (hfirst : t.FirstIsShortest (p.2.lap - t.startedAt)) : (t.perform p).Coherent := by
  have hrunning := running_of_completes h
  have hdone : (t.perform p).laps = t.laps ++ [t.lap p.2.lap] := if_pos h
  refine ⟨fun _ => ?_, fun hnone => ?_, ?_⟩
  · have hstarted : (t.perform p).startedAt = p.2.start := if_pos (.inr h)
    rw [hstarted]
    exact (perform_completes h).1
  · rw [hdone] at hnone
    cases List.append_eq_nil_iff.mp hnone |>.2
  · rw [hdone]
    cases hlaps : t.laps with
    | nil =>
      obtain ⟨htime, hnumber⟩ := perform_first h hcoherent hrunning hlaps
      unfold FirstIsShortest at hfirst
      rw [hlaps] at hfirst
      rintro first rest ⟨⟩
      have hpos := sub_pos.mpr hrises
      rw [htime, hnumber, (toInt32_eq_self_iff hpos.le).mpr hfirst]
      exact ⟨⟨hpos, hfirst⟩, rfl, rfl⟩
    | cons first rest =>
      rintro _ _ ⟨⟩
      refine ⟨(hcoherent.first first rest hlaps).1, ?_⟩
      exact perform_later h hlate hcoherent hrunning hlaps

theorem changed_keeps (op : Op) (h : t.Coherent ∧ t.BestIsShortest) :
    (t.changed op).Coherent ∧ (t.changed op).BestIsShortest := by
  obtain ⟨⟨hstart, hnone, hfirst⟩, hbest⟩ := h
  cases op with
  | resetAll => exact ⟨⟨nofun, fun _ => rfl, nofun⟩, fun hsome => absurd rfl hsome⟩
  | stopTimer => exact ⟨⟨nofun, hnone, hfirst⟩, hbest⟩
  | _ => exact ⟨⟨hstart, hnone, hfirst⟩, hbest⟩

theorem perform_keeps {p : Call × Readings} (hlate : 2 ^ 32 ≤ p.2.lap)
    (hrises : t.startedAt < p.2.lap) (hcoherent : t.Coherent) (hbest : t.BestIsShortest) :
    let P := t.timer.completes p.1 = true → t.FirstIsShortest (p.2.lap - t.startedAt)
    ((t.perform p).BestIsShortest ↔ P) ∧ (P → (t.perform p).Coherent) := by
  cases h : t.timer.completes p.1 with
  | true =>
    refine ⟨?_, fun hfirst => coherent_completes h hlate hrises hcoherent (hfirst rfl)⟩
    rw [bestIsShortest_completes h hlate hrises hcoherent hbest]
    exact ⟨fun hfirst _ => hfirst, fun hfirst => hfirst rfl⟩
  | false =>
    obtain ⟨hlaps, htime, hnumber, hstart⟩ := perform_not_completes h hcoherent.start
    refine ⟨iff_of_true ?_ nofun, fun _ => ⟨hstart, ?_, ?_⟩⟩
    · unfold BestIsShortest
      rw [hlaps, htime, hnumber]
      exact hbest
    · rw [hlaps, htime]
      exact hcoherent.none
    · rw [hlaps, htime, hnumber]
      exact hcoherent.first

def Rises (t : LapTrace) (op : Op) : Prop :=
  ∀ c ∈ op.readings, 2 ^ 32 ≤ c.lap ∧ t.startedAt < c.lap

theorem changed_of_call {op : Op} {p : Call × Readings} (h : t.timer.call op = some p) :
    (t.changed op).timer.completes p.1 = t.timer.completes p.1 ∧ (t.changed op).laps = t.laps := by
  obtain ⟨lapTrigger, sectorTrigger, speed, htimer⟩ := LapTimer.changed_of_call h
  constructor
  · change (t.timer.changed op).completes p.1 = _
    rw [htimer]
    cases p.1 <;> rfl
  · cases op with
    | resetAll => cases h
    | _ => rfl

theorem step_keeps {op : Op} (hrises : t.Rises op) (hcoherent : t.Coherent)
    (hbest : t.BestIsShortest) :
    ((t.step op).BestIsShortest ↔ t.CompletesNoShorter op) ∧
      (t.CompletesNoShorter op → (t.step op).Coherent) := by
  obtain ⟨hcoherent', hbest'⟩ := changed_keeps op ⟨hcoherent, hbest⟩
  unfold step CompletesNoShorter
  cases hcall : t.timer.call op with
  | none => exact ⟨iff_of_true hbest' nofun, fun _ => hcoherent'⟩
  | some p =>
    obtain ⟨hlate, hstarted⟩ := hrises p.2 (readings_of_call hcall)
    have hkeeps := perform_keeps (t := t.changed op) hlate hstarted hcoherent' hbest'
    obtain ⟨hcompletes, hlaps⟩ := changed_of_call hcall
    unfold FirstIsShortest at hkeeps ⊢
    rw [hcompletes, hlaps] at hkeeps
    refine ⟨hkeeps.1.trans ⟨?_, fun h => h p rfl⟩, fun h => hkeeps.2 (h p rfl)⟩
    rintro h _ ⟨⟩
    exact h

def reset (s : LapTimer) : LapTrace := { timer := s.resetAll }

theorem startedAt_step (op : Op) :
    (t.step op).startedAt = t.startedAt ∨
      ∃ c ∈ op.readings, (t.step op).startedAt = c.start := by
  unfold step
  cases hcall : t.timer.call op with
  | none => exact .inl rfl
  | some p =>
    unfold perform
    dsimp only
    split_ifs
    · exact .inr ⟨p.2, readings_of_call hcall, rfl⟩
    · exact .inl rfl

/-- The lap under way started at the reset or at a reading of an earlier event. -/
theorem startedAt_run (s : LapTimer) (ops : List Op) :
    (run step (reset s) ops).startedAt = 0 ∨
      ∃ op ∈ ops, ∃ c ∈ op.readings, (run step (reset s) ops).startedAt = c.start := by
  refine run_history step
    (fun pre t => t.startedAt = 0 ∨ ∃ op ∈ pre, ∃ c ∈ op.readings, t.startedAt = c.start)
    (.inl rfl) ops ?_
  intro pre op hpre ih
  rcases startedAt_step (t := run step (reset s) pre) op with hsame | ⟨c, hc, hstarted⟩
  · rw [hsame]
    refine ih.imp_right ?_
    rintro ⟨op', hop', hstarted⟩
    exact ⟨op', List.mem_append_left _ hop', hstarted⟩
  · exact .inr ⟨op, by simp, c, hc, hstarted⟩

theorem everyStep_rises {s : LapTimer} {ops : List Op} (h : Rising ops) :
    EveryStep step Rises (reset s) ops := by
  intro pre op hpre c hc
  have hop : op ∈ ops := hpre.subset (by simp)
  have hlate := h.late op hop c hc
  refine ⟨hlate, ?_⟩
  rcases startedAt_run s pre with hzero | ⟨op', hop', c', hc', hstarted⟩
  · rw [hzero]
    omega
  · have hbefore : c'.start < c.sector :=
      (List.pairwise_append.mp (h.between.sublist hpre.sublist)).2.2 op' hop' op (by simp)
        c' hc' c hc
    have hwithin := (h.within op hop c hc).1
    rw [hstarted]
    omega

/-- Where the first lap is no longer than any after it and 32 bits hold it, the best lap is the
    shortest throughout, and nowhere else. -/
theorem best_is_shortest_iff (s : LapTimer) (ops : List Op) (h : Rising ops) :
    EveryState step BestIsShortest (reset s) ops ↔
      EveryStep step CompletesNoShorter (reset s) ops := by
  refine everyState_iff_of Coherent Rises (everyStep_rises h) ?_ ?_ ?_ ?_
  · intro t op hrises hcoherent hbest hshorter
    exact (step_keeps hrises hcoherent hbest).2 hshorter
  · intro t op hrises hcoherent hbest
    exact (step_keeps hrises hcoherent hbest).1
  · exact ⟨nofun, fun _ => rfl, nofun⟩
  · intro hsome
    exact absurd rfl hsome

/-- Two laps, from a start in November 2023. -/
def twoLaps (first second : ℤ) : List Op :=
  [.startLap (.single 1700000000000), .completeLap (.single (1700000000000 + first)),
    .completeLap (.single (1700000000000 + first + second))]

theorem rising_twoLaps {first second : ℤ} (hfirst : 0 < first) (hsecond : 0 < second) :
    Rising (twoLaps first second) := by
  constructor
  · simp only [twoLaps, Readings.single, Op.readings, List.forall_mem_cons, Option.mem_some_iff]
    grind
  · simp only [twoLaps, Readings.single, Op.readings, List.forall_mem_cons, Option.mem_some_iff]
    grind
  · simp only [twoLaps, Readings.single, Op.readings, List.pairwise_cons, List.forall_mem_cons,
      Option.mem_some_iff]
    grind

theorem best_is_shortest_twoLaps :
    EveryState step BestIsShortest (reset {}) (twoLaps 80000 90000) ↔
      EveryStep step CompletesNoShorter (reset {}) (twoLaps 80000 90000) :=
  best_is_shortest_iff {} _ (rising_twoLaps (by decide) (by decide))

/-- The second lap is ten seconds faster, and the first stays the best. -/
theorem best_not_shortest :
    ¬ ∀ s ops, Rising ops → EveryState step BestIsShortest (reset s) ops := by
  intro h
  have hbest := h {} (twoLaps 90000 80000) (rising_twoLaps (by decide) (by decide)) _
    List.prefix_rfl
  revert hbest
  unfold BestIsShortest
  decide

end LapTrace

end LapTimer

end SpeeduinoDash
