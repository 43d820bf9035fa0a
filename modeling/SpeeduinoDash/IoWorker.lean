import Mathlib.Data.Nat.Notation
import Mathlib.Tactic.SplitIfs
import SpeeduinoDash.Lib.Runs

set_option autoImplicit false

/-!
# Stopping the IO worker

`run` is on a thread of its own, `stop` on others. Every access to the flag or to the io service is
one step, and so is a call of `m_ioService.run()`, whose outcome comes with the step.
-/
namespace SpeeduinoDash
open Lib.Runs

inductive RunPoint where
  | entry
  | loop
  | service
  | returned
  | resetting
  | threw (what : String)
  | givingUp (what : String)
  | finished
deriving DecidableEq

inductive ServiceOutcome where
  | returns
  | throws (what : String)
deriving DecidableEq

structure OpenAutoIOWorker where
  running : Bool := false
  serviceStopped : Bool := false
  point : RunPoint := .entry
  consecutiveExceptions : ℕ := 0
  currentRetryDelayMs : ℕ := 100
  fatalErrors : List String := []
  /-- Calls of `stop` that have cleared the flag, and calls that have returned. -/
  stopping : ℕ := 0
  stopped : ℕ := 0
deriving DecidableEq

namespace OpenAutoIOWorker

def maxConsecutiveExceptions : ℕ := 10
def initialRetryDelayMs : ℕ := 100
def maxRetryDelayMs : ℕ := 5000

def fatalMsg (consecutiveExceptions : ℕ) (what : String) : String :=
  "IO service fatal error: " ++ toString consecutiveExceptions ++
    " consecutive exceptions. Last error: " ++ what

def runStep (w : OpenAutoIOWorker) (outcome : ServiceOutcome) : OpenAutoIOWorker :=
  match w.point with
  | .entry =>
    { w with
      running := true
      point := .loop
      consecutiveExceptions := 0
      currentRetryDelayMs := initialRetryDelayMs }
  | .loop => { w with point := if w.running then .service else .finished }
  | .service =>
    match outcome with
    | .returns => { w with point := .returned }
    | .throws what => { w with point := .threw what }
  | .returned =>
    { w with
      point := if w.running then .resetting else .loop
      consecutiveExceptions := 0
      currentRetryDelayMs := initialRetryDelayMs }
  | .resetting => { w with serviceStopped := false, point := .loop }
  | .threw what =>
    let w := { w with consecutiveExceptions := w.consecutiveExceptions + 1 }
    if maxConsecutiveExceptions ≤ w.consecutiveExceptions then
      { w with
        fatalErrors := w.fatalErrors ++ [fatalMsg w.consecutiveExceptions what]
        point := .givingUp what }
    else
      { w with
        currentRetryDelayMs := min (w.currentRetryDelayMs * 2) maxRetryDelayMs
        point := .loop }
  | .givingUp _ => { w with running := false, point := .finished }
  | .finished => w

inductive Step where
  | run (outcome : ServiceOutcome)
  /-- The first half of a call of `stop`, on any thread. -/
  | stop
  /-- The second half of one. -/
  | stopService

def next (w : OpenAutoIOWorker) : Step → OpenAutoIOWorker
  | .run outcome => w.runStep outcome
  | .stop => { w with running := false, stopping := w.stopping + 1 }
  | .stopService =>
    if w.stopping = 0 then w
    else
      { w with serviceStopped := true, stopping := w.stopping - 1, stopped := w.stopped + 1 }

/-- Once a call of `stop` has returned, the flag is down. -/
def StaysStopped (w : OpenAutoIOWorker) : Prop := 0 < w.stopped → w.running = false

def UnderWay (w : OpenAutoIOWorker) : Prop := w.point ≠ .entry ∧ w.point ≠ .finished

/-- The worker with whether a call of `stop` has cleared the flag since `run` began. -/
structure Traced where
  worker : OpenAutoIOWorker := {}
  cleared : Bool := false

namespace Traced

def next (t : Traced) (step : Step) : Traced where
  worker := t.worker.next step
  cleared :=
    match step with
    | .run _ => t.cleared && decide (t.worker.point ≠ .entry)
    | .stop => true
    | .stopService => t.cleared

/-- `run` does not begin after a call of `stop` has returned, and if it is under way when the first
    one returns, the flag has been cleared since it began. -/
structure StopsTheRun (t : Traced) (step : Step) : Prop where
  begins : ∀ outcome, step = .run outcome → t.worker.point = .entry → t.worker.stopped = 0
  returns : step = .stopService → 0 < t.worker.stopping → t.worker.stopped = 0 →
    t.worker.UnderWay → t.cleared = true

/-- The flag is up from where `run` begins until it is cleared or `run` ends. -/
def FlagUp (t : Traced) : Prop :=
  t.worker.running = true ↔ t.worker.UnderWay ∧ t.cleared = false

theorem flagUp_runStep {t : Traced} (h : t.FlagUp) (outcome : ServiceOutcome) :
    (t.next (.run outcome)).FlagUp := by
  obtain ⟨w, cleared⟩ := t
  unfold FlagUp UnderWay at h ⊢
  unfold next OpenAutoIOWorker.next runStep
  cases hpoint : w.point with
  | entry => simp
  | loop =>
    rw [hpoint] at h
    cases hrunning : w.running <;> simp_all
  | service => cases outcome <;> simp_all
  | returned =>
    rw [hpoint] at h
    cases hrunning : w.running <;> simp_all
  | resetting => simp_all
  | threw what =>
    dsimp only
    split_ifs <;> simp_all
  | givingUp what => simp
  | finished => simp_all

theorem flagUp_next (t : Traced) (step : Step) (h : t.FlagUp) : (t.next step).FlagUp := by
  cases step with
  | run outcome => exact flagUp_runStep h outcome
  | stop =>
    unfold FlagUp next OpenAutoIOWorker.next
    simp
  | stopService =>
    unfold FlagUp UnderWay at h ⊢
    unfold next OpenAutoIOWorker.next
    dsimp only
    split_ifs <;> exact h

/-- `run` puts the flag up where it begins, and nowhere else. -/
theorem running_runStep {w : OpenAutoIOWorker} {outcome : ServiceOutcome}
    (hbegun : w.point ≠ .entry) (h : w.running = false) : (w.runStep outcome).running = false := by
  unfold runStep
  cases hpoint : w.point with
  | entry => exact absurd hpoint hbegun
  | service => cases outcome <;> exact h
  | threw what =>
    dsimp only
    split_ifs <;> exact h
  | givingUp what => rfl
  | _ => exact h

theorem stopped_runStep (w : OpenAutoIOWorker) (outcome : ServiceOutcome) :
    (w.runStep outcome).stopped = w.stopped := by
  unfold runStep
  cases w.point with
  | service => cases outcome <;> rfl
  | threw what =>
    dsimp only
    split_ifs <;> rfl
  | _ => rfl

theorem staysStopped_run_iff {t : Traced} (outcome : ServiceOutcome) (h : t.worker.StaysStopped) :
    (t.next (.run outcome)).worker.StaysStopped ↔ t.StopsTheRun (.run outcome) := by
  change (0 < (t.worker.runStep outcome).stopped → _) ↔ _
  rw [stopped_runStep]
  by_cases hentry : t.worker.point = .entry
  · have hup : (t.next (.run outcome)).worker.running = true := by
      unfold next OpenAutoIOWorker.next runStep
      rw [hentry]
    rw [hup]
    constructor
    · intro hstays
      refine ⟨fun _ _ _ => ?_, nofun⟩
      by_contra hstopped
      cases hstays (Nat.pos_of_ne_zero hstopped)
    · intro hbegins hstopped
      have hzero := hbegins.begins outcome rfl hentry
      omega
  · refine iff_of_true (fun hstopped => running_runStep hentry (h hstopped)) ⟨?_, nofun⟩
    exact fun _ _ hbegins => absurd hbegins hentry

/-- The first call to return finds the flag down exactly where it was cleared during the run. -/
theorem staysStopped_stopService_iff {t : Traced} (hflag : t.FlagUp) (h : t.worker.StaysStopped) :
    (t.next .stopService).worker.StaysStopped ↔ t.StopsTheRun .stopService := by
  by_cases hnone : t.worker.stopping = 0
  · have hsame : (t.next .stopService).worker = t.worker := if_pos hnone
    rw [hsame]
    refine iff_of_true h ⟨nofun, fun _ hpos => ?_⟩
    omega
  · have hreturns : (t.next .stopService).worker =
        { t.worker with
          serviceStopped := true
          stopping := t.worker.stopping - 1
          stopped := t.worker.stopped + 1 } := if_neg hnone
    rw [hreturns]
    constructor
    · intro hstays
      have hdown : t.worker.running = false := hstays (Nat.succ_pos _)
      refine ⟨nofun, fun _ _ _ hunder => ?_⟩
      by_contra hcleared
      rw [Bool.not_eq_true] at hcleared
      rw [hflag.mpr ⟨hunder, hcleared⟩] at hdown
      cases hdown
    · intro hstops _
      change t.worker.running = false
      rcases Nat.eq_zero_or_pos t.worker.stopped with hfirst | hlater
      · by_contra hup
        rw [Bool.not_eq_false] at hup
        obtain ⟨hunder, hcleared⟩ := hflag.mp hup
        rw [hstops.returns rfl (Nat.pos_of_ne_zero hnone) hfirst hunder] at hcleared
        cases hcleared
      · exact h hlater

theorem staysStopped_next_iff {t : Traced} (step : Step) (hflag : t.FlagUp)
    (h : t.worker.StaysStopped) :
    (t.next step).worker.StaysStopped ↔ t.StopsTheRun step := by
  cases step with
  | run outcome => exact staysStopped_run_iff outcome h
  | stop => exact iff_of_true (fun _ => rfl) ⟨nofun, nofun⟩
  | stopService => exact staysStopped_stopService_iff hflag h

/-- The worker stays stopped in every state of an interleaving exactly where every call of `stop`
    stops the run that there is, and no run begins later. -/
theorem stays_stopped_iff (steps : List Step) :
    EveryState next (fun t => t.worker.StaysStopped) {} steps ↔
      EveryStep next StopsTheRun {} steps := by
  refine everyState_iff FlagUp flagUp_next (fun t step => staysStopped_next_iff step) ?_ ?_ steps
  · simp [FlagUp, UnderWay]
  · intro hstopped
    rfl

/-- `stop` returns before the thread has entered `run`. -/
theorem restarted :
    ¬ ∀ steps, EveryState next (fun t => t.worker.StaysStopped) {} steps := by
  intro h
  have hstopped := h [.stop, .stopService, .run .returns] _ List.prefix_rfl (by decide)
  revert hstopped
  decide

end Traced

end OpenAutoIOWorker

end SpeeduinoDash
