import Mathlib.Data.Rat.Floor
import Mathlib.Logic.Function.Basic
import Mathlib.Tactic.SplitIfs
import SpeeduinoDash.Lib.History

set_option autoImplicit false

/-!
# The performance meter

`stored` is what an `int` property keeps of a number. The results of a run are kept by milestone.
A change of the speed brings the reading of the clock that its handler takes, and the one that
`completeRun` would take.
-/
namespace SpeeduinoDash
open Lib.History

inductive RunState where
  | idle
  | staging
  | running
  | completed
deriving DecidableEq

inductive Milestone where
  | sixtyFeet
  | eighthMile
  | quarterMile
  | mph60
  | kmh100
deriving DecidableEq

namespace Milestone

def distances : List Milestone := [.sixtyFeet, .eighthMile, .quarterMile]

/-- In meters, or in km/h. -/
def target : Milestone → ℚ
  | .sixtyFeet => 18.288
  | .eighthMile => 201.168
  | .quarterMile => 402.336
  | .mph60 => 96.56
  | .kmh100 => 100

theorem target_pos (m : Milestone) : 0 < m.target := by
  cases m <;> norm_num [target]

end Milestone

/-- The result at a milestone. Those of a speed have no trap speed. -/
structure Mark where
  time : ℤ := 0
  trapSpeed : ℚ := 0
  hit : Bool := false
deriving DecidableEq

structure RunData where
  timestamp : ℤ
  times : Milestone → ℤ
  trapSpeed : ℚ

structure PerformanceMeter where
  speed : ℚ := 0
  rpm : ℚ := 0
  launchThreshold : ℚ := 3
  rpmThreshold : ℚ := 2000
  runState : RunState := .idle
  runStartTime : ℤ := 0
  runEndTime : ℤ := 0
  distanceTraveled : ℚ := 0
  lastSpeed : ℚ := 0
  lastUpdateTime : ℤ := 0
  marks : Milestone → Mark := fun _ => {}
  bestTimes : Milestone → ℤ := fun _ => 0
  bestTrapSpeedQuarter : ℚ := 0
  runHistory : List RunData := []
  maxRunHistory : ℕ := 10

namespace PerformanceMeter

section Methods

variable (stored : ℤ → ℤ) (s : PerformanceMeter)

def resetRun : PerformanceMeter :=
  { s with runState := .idle, distanceTraveled := 0, marks := fun _ => {} }

def resetAll : PerformanceMeter :=
  { s.resetRun with bestTimes := fun _ => 0, bestTrapSpeedQuarter := 0, runHistory := [] }

def stageRun : PerformanceMeter :=
  if s.runState = .idle ∧ s.speed < s.launchThreshold then
    { s.resetRun with runState := .staging }
  else s

def Improves (m : Milestone) : Prop :=
  0 < (s.marks m).time ∧ (s.bestTimes m = 0 ∨ (s.marks m).time < s.bestTimes m)

instance (m : Milestone) : Decidable (s.Improves m) :=
  inferInstanceAs (Decidable (_ ∧ _))

def runData (timestamp : ℤ) : RunData where
  timestamp := timestamp
  times := fun m => (s.marks m).time
  trapSpeed := (s.marks .quarterMile).trapSpeed

def completeRun (ended : ℤ) : PerformanceMeter :=
  { s with
    runState := .completed
    runEndTime := stored ended
    bestTimes := fun m => if s.Improves m then (s.marks m).time else s.bestTimes m
    bestTrapSpeedQuarter :=
      if s.Improves .quarterMile then (s.marks .quarterMile).trapSpeed else s.bestTrapSpeedQuarter
    runHistory := push s.maxRunHistory (s.runData (stored ended)) s.runHistory }

def autoStage : PerformanceMeter :=
  if s.runState = .idle ∧ s.speed < s.launchThreshold ∧ s.rpmThreshold < s.rpm then
    { s with runState := .staging }
  else s

def Launches : Prop := s.runState = .staging ∧ s.launchThreshold ≤ s.speed

instance : Decidable s.Launches :=
  inferInstanceAs (Decidable (_ ∧ _))

def launch (now : ℤ) : PerformanceMeter :=
  if s.Launches then
    { s with
      runState := .running
      runStartTime := stored now
      lastUpdateTime := stored now
      lastSpeed := 0
      distanceTraveled := 0 }
  else s

/-- Seconds. -/
def deltaTime (now : ℤ) : ℚ := (now - s.lastUpdateTime) / 1000

def integrate (now : ℤ) : PerformanceMeter :=
  let avgSpeed := (s.speed + s.lastSpeed) / 2
  let distanceIncrement := avgSpeed / 3.6 * s.deltaTime now
  { s with distanceTraveled := s.distanceTraveled + distanceIncrement }

def measured : Milestone → ℚ
  | .mph60 => s.speed
  | .kmh100 => s.speed
  | _ => s.distanceTraveled

def Due (m : Milestone) : Prop := (s.marks m).hit = false ∧ m.target ≤ s.measured m

instance (m : Milestone) : Decidable (s.Due m) :=
  inferInstanceAs (Decidable (_ ∧ _))

def record (m : Milestone) (elapsedMs : ℤ) : PerformanceMeter :=
  { s with
    marks := Function.update s.marks m
      { time := stored elapsedMs
        trapSpeed := if m ∈ Milestone.distances then s.speed else (s.marks m).trapSpeed
        hit := true } }

def check (m : Milestone) (elapsedMs : ℤ) : PerformanceMeter :=
  if s.Due m then s.record stored m elapsedMs else s

def checkQuarter (elapsedMs ended : ℤ) : PerformanceMeter :=
  if s.Due .quarterMile then (s.record stored .quarterMile elapsedMs).completeRun stored ended else s

def checkMilestones (elapsedMs ended : ℤ) : PerformanceMeter :=
  let shorter := (s.check stored .sixtyFeet elapsedMs).check stored .eighthMile elapsedMs
  let distances := shorter.checkQuarter stored elapsedMs ended
  (distances.check stored .mph60 elapsedMs).check stored .kmh100 elapsedMs

def Timely (now : ℤ) : Prop := 0 < s.deltaTime now ∧ s.deltaTime now < 1

instance (now : ℤ) : Decidable (s.Timely now) :=
  inferInstanceAs (Decidable (_ ∧ _))

def measure (now ended : ℤ) : PerformanceMeter :=
  if s.Timely now then
    (s.integrate now).checkMilestones stored (now - s.runStartTime) ended
  else s

def abort : PerformanceMeter :=
  if s.speed < 5 ∧ 10 < s.distanceTraveled then { s with runState := .idle } else s

def track (now ended : ℤ) : PerformanceMeter :=
  if s.runState = .running then
    { s.measure stored now ended with lastSpeed := s.speed, lastUpdateTime := stored now }.abort
  else s

def settle : PerformanceMeter :=
  if s.runState = .completed ∧ s.speed < s.launchThreshold then { s with runState := .idle } else s

def onSpeedChanged (now ended : ℤ) : PerformanceMeter :=
  ((s.autoStage.launch stored now).track stored now ended).settle

theorem stageRun_eq :
    s.stageRun = s ∨ s.stageRun = { s.resetRun with runState := .staging } := by
  unfold stageRun
  split_ifs
  · exact .inr rfl
  · exact .inl rfl

theorem autoStage_eq : s.autoStage = s ∨ s.autoStage = { s with runState := .staging } := by
  unfold autoStage
  split_ifs
  · exact .inr rfl
  · exact .inl rfl

theorem settle_eq : s.settle = s ∨ s.settle = { s with runState := .idle } := by
  unfold settle
  split_ifs
  · exact .inr rfl
  · exact .inl rfl

theorem not_launches_of_running {s : PerformanceMeter} (h : s.runState = .running) :
    ¬ s.Launches := by
  intro hlaunches
  have hstaging := h.symm.trans hlaunches.1
  cases hstaging

end Methods

inductive Op where
  | speed (now ended : ℤ) (speed : ℚ)
  | rpm (rpm : ℚ)
  | resetRun
  | resetAll
  | stageRun
  | launchThreshold (threshold : ℚ)
  | rpmThreshold (threshold : ℚ)
  | maxRunHistory (n : ℕ)

def step (stored : ℤ → ℤ) (s : PerformanceMeter) : Op → PerformanceMeter
  | .speed now ended speed =>
    if speed = s.speed then s else { s with speed := speed }.onSpeedChanged stored now ended
  | .rpm rpm => { s with rpm := rpm }
  | .resetRun => s.resetRun
  | .resetAll => s.resetAll
  | .stageRun => s.stageRun
  | .launchThreshold threshold => { s with launchThreshold := threshold }
  | .rpmThreshold threshold => { s with rpmThreshold := threshold }
  | .maxRunHistory n => { s with maxRunHistory := n }

end PerformanceMeter

end SpeeduinoDash
