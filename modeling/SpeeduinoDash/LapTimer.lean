import Mathlib.Data.Rat.Floor
import Mathlib.Tactic.SplitIfs
import SpeeduinoDash.Lib.History
import SpeeduinoDash.Lib.Runs
import SpeeduinoDash.Lib.WrapClock

set_option autoImplicit false

/-!
# The lap timer

`stored` is what `lapStartTime` and `sectorStartTime` keep of a reading of the clock; as `int`
properties they keep `toInt32` of it. An event brings its readings along.
-/
namespace SpeeduinoDash
open Lib.History Lib.Runs Lib.WrapClock

/-- The clock where one event reads it, for a sector, for a lap and for the start of a lap. -/
structure Readings where
  sector : ℤ
  lap : ℤ
  start : ℤ
deriving DecidableEq

def Readings.single (now : ℤ) : Readings := ⟨now, now, now⟩

structure LapData where
  number : ℤ
  time : ℤ
  sectors : List ℤ
  timestamp : ℤ
deriving DecidableEq

structure LapTimer where
  isRunning : Bool := false
  currentLapNumber : ℤ := 0
  currentLapTime : ℤ := 0
  currentSector : ℕ := 0
  currentSectorTimes : List ℤ := []
  bestLapTime : ℤ := 0
  bestLapNumber : ℤ := 0
  bestSectorTimes : List ℤ := []
  predictedDelta : ℤ := 0
  numSectors : ℕ := 3
  autoStartOnMovement : Bool := false
  movementThreshold : ℚ := 5
  speed : ℚ := 0
  sectorTrigger : Bool := false
  lapTrigger : Bool := false
  lapHistory : List LapData := []
  maxLapHistory : ℕ := 20
  lapStartTime : ℤ := 0
  sectorStartTime : ℤ := 0
deriving DecidableEq

namespace LapTimer

/-- `times[i] = time`. A place past the end would leave holes, but no run gets there. -/
def assign (times : List ℤ) (i : ℕ) (time : ℤ) : List ℤ :=
  if i < times.length then times.set i time
  else times ++ List.replicate (i - times.length) 0 ++ [time]

section Methods

variable (stored : ℤ → ℤ) (s : LapTimer)

def startLap (c : Readings) : LapTimer :=
  { s with
    isRunning := true
    currentLapNumber := if s.isRunning then s.currentLapNumber else 1
    lapStartTime := stored c.start
    sectorStartTime := stored c.start
    currentLapTime := 0
    currentSector := 0
    currentSectorTimes := List.replicate s.numSectors 0 }

def lapData (c : Readings) : LapData where
  number := s.currentLapNumber
  time := c.lap - s.lapStartTime
  sectors := s.currentSectorTimes
  timestamp := c.lap

def checkBest (lapTime : ℤ) : LapTimer :=
  if s.bestLapTime = 0 ∨ lapTime < s.bestLapTime then
    { s with
      bestLapTime := toInt32 lapTime
      bestLapNumber := s.currentLapNumber
      bestSectorTimes := s.currentSectorTimes }
  else s

def completeLap (c : Readings) : LapTimer :=
  if s.isRunning = false then s
  else
    let lapTime := c.lap - s.lapStartTime
    let recorded := { s with lapHistory := push s.maxLapHistory (s.lapData c) s.lapHistory }
    let checked := recorded.checkBest lapTime
    { checked with
      currentLapNumber := toInt32 (s.currentLapNumber + 1)
      predictedDelta := 0 }.startLap stored c

/-- How much the sector that ends has changed the delta to the best lap. -/
def sectorDelta (sectorTime : ℤ) : ℤ :=
  match s.bestSectorTimes[s.currentSector]? with
  | some best => if 0 < best then sectorTime - best else 0
  | none => 0

def recordSector (c : Readings) : LapTimer :=
  let sectorTime := c.sector - s.sectorStartTime
  { s with
    currentSectorTimes := assign s.currentSectorTimes s.currentSector sectorTime
    predictedDelta := toInt32 (s.predictedDelta + s.sectorDelta sectorTime)
    currentSector := s.currentSector + 1
    sectorStartTime := stored c.sector }

def completeSector (c : Readings) : LapTimer :=
  if s.isRunning = false then s
  else
    let recorded := s.recordSector stored c
    if recorded.numSectors ≤ recorded.currentSector then recorded.completeLap stored c else recorded

def stopTimer : LapTimer := { s with isRunning := false }

def resetAll : LapTimer :=
  { s with
    isRunning := false
    currentLapNumber := 0
    currentLapTime := 0
    currentSector := 0
    currentSectorTimes := []
    bestLapTime := 0
    bestLapNumber := 0
    bestSectorTimes := []
    predictedDelta := 0
    lapHistory := [] }

end Methods

inductive Call where
  | startLap
  | completeSector
  | completeLap
deriving DecidableEq

inductive Op where
  | startLap (c : Readings)
  | completeSector (c : Readings)
  | completeLap (c : Readings)
  | stopTimer
  | resetAll
  | lapTrigger (on : Bool) (c : Readings)
  | sectorTrigger (on : Bool) (c : Readings)
  | speed (speed : ℚ) (c : Readings)
  /-- The timer of the display. -/
  | tick (now : ℤ)
  | numSectors (n : ℕ)
  | maxLapHistory (n : ℕ)
  | autoStart (on : Bool) (threshold : ℚ)

def changed (s : LapTimer) : Op → LapTimer
  | .stopTimer => s.stopTimer
  | .resetAll => s.resetAll
  | .lapTrigger on _ => { s with lapTrigger := on }
  | .sectorTrigger on _ => { s with sectorTrigger := on }
  | .speed speed _ => { s with speed := speed }
  | .tick now =>
    { s with
      currentLapTime :=
        if s.isRunning then toInt32 (now - s.lapStartTime) else s.currentLapTime }
  | .numSectors n => { s with numSectors := n }
  | .maxLapHistory n => { s with maxLapHistory := n }
  | .autoStart on threshold =>
    { s with autoStartOnMovement := on, movementThreshold := threshold }
  | _ => s

def call (s : LapTimer) : Op → Option (Call × Readings)
  | .startLap c => some (.startLap, c)
  | .completeSector c => some (.completeSector, c)
  | .completeLap c => some (.completeLap, c)
  | .lapTrigger on c =>
    if on = s.lapTrigger ∨ on = false then none
    else if s.isRunning = false then some (.startLap, c)
    else if s.currentSector + 1 = s.numSectors then some (.completeSector, c)
    else some (.completeLap, c)
  | .sectorTrigger on c =>
    if on = s.sectorTrigger ∨ on = false ∨ s.isRunning = false then none
    else some (.completeSector, c)
  | .speed speed c =>
    if speed ≠ s.speed ∧ s.autoStartOnMovement = true ∧ s.isRunning = false ∧
        s.movementThreshold < speed then
      some (.startLap, c)
    else none
  | _ => none

def perform (stored : ℤ → ℤ) (s : LapTimer) : Call × Readings → LapTimer
  | (.startLap, c) => s.startLap stored c
  | (.completeSector, c) => s.completeSector stored c
  | (.completeLap, c) => s.completeLap stored c

def step (stored : ℤ → ℤ) (s : LapTimer) (op : Op) : LapTimer :=
  match s.call op with
  | none => s.changed op
  | some call => (s.changed op).perform stored call

def Op.readings : Op → Option Readings
  | .startLap c => some c
  | .completeSector c => some c
  | .completeLap c => some c
  | .lapTrigger _ c => some c
  | .sectorTrigger _ c => some c
  | .speed _ c => some c
  | _ => none

theorem readings_of_call {s : LapTimer} {op : Op} {p : Call × Readings} (h : s.call op = some p) :
    op.readings = some p.2 := by
  cases op with
  | startLap c => cases h; rfl
  | completeSector c => cases h; rfl
  | completeLap c => cases h; rfl
  | lapTrigger on c =>
    dsimp only [call] at h
    split_ifs at h <;> cases h <;> rfl
  | sectorTrigger on c =>
    dsimp only [call] at h
    split_ifs at h
    cases h
    rfl
  | speed speed c =>
    dsimp only [call] at h
    split_ifs at h
    cases h
    rfl
  | _ => cases h

def completes (s : LapTimer) : Call → Bool
  | .startLap => false
  | .completeSector => s.isRunning && decide (s.numSectors ≤ s.currentSector + 1)
  | .completeLap => s.isRunning

section Effects

variable (stored : ℤ → ℤ) {s : LapTimer} {call : Call} (c : Readings)

def ending (s : LapTimer) (c : Readings) : Call → LapTimer
  | .completeSector => s.recordSector stored c
  | _ => s

theorem ending_eq (s : LapTimer) (c : Readings) (call : Call) :
    ∃ times sector start delta, s.ending stored c call =
      { s with
        currentSectorTimes := times
        currentSector := sector
        sectorStartTime := start
        predictedDelta := delta } := by
  cases call <;> exact ⟨_, _, _, _, rfl⟩

theorem completeLap_of_running (h : s.isRunning = true) :
    s.completeLap stored c =
      { ({ s with lapHistory := push s.maxLapHistory (s.lapData c) s.lapHistory } :
          LapTimer).checkBest (c.lap - s.lapStartTime) with
        currentLapNumber := toInt32 (s.currentLapNumber + 1)
        predictedDelta := 0 }.startLap stored c := by
  unfold completeLap
  rw [h]
  rfl

theorem completeSector_of_running (h : s.isRunning = true) :
    s.completeSector stored c =
      if s.numSectors ≤ s.currentSector + 1 then (s.recordSector stored c).completeLap stored c
      else s.recordSector stored c := by
  unfold completeSector
  rw [h]
  rfl

theorem perform_of_completes (h : s.completes call = true) :
    s.perform stored (call, c) = (s.ending stored c call).completeLap stored c := by
  cases call with
  | startLap => cases h
  | completeSector =>
    obtain ⟨hrunning, hlast⟩ := Bool.and_eq_true_iff.mp h
    exact (completeSector_of_running stored c hrunning).trans (if_pos (of_decide_eq_true hlast))
  | completeLap => rfl

/-- A call that does not complete a lap starts one, ends a sector or does nothing. -/
theorem perform_of_not_completes (h : s.completes call = false) :
    (call = .startLap ∧ s.perform stored (call, c) = s.startLap stored c) ∨
      (s.isRunning = true ∧ call = .completeSector ∧ s.currentSector + 1 < s.numSectors ∧
        s.perform stored (call, c) = s.recordSector stored c) ∨
      (call ≠ .startLap ∧ s.isRunning = false ∧ s.perform stored (call, c) = s) := by
  cases call with
  | startLap => exact .inl ⟨rfl, rfl⟩
  | completeSector =>
    cases hrunning : s.isRunning with
    | false => exact .inr (.inr ⟨nofun, rfl, if_pos hrunning⟩)
    | true =>
      have hmore : ¬ s.numSectors ≤ s.currentSector + 1 := by
        simpa [completes, hrunning] using h
      refine .inr (.inl ⟨rfl, rfl, not_le.mp hmore, ?_⟩)
      exact (completeSector_of_running stored c hrunning).trans (if_neg hmore)
  | completeLap => exact .inr (.inr ⟨nofun, h, if_pos h⟩)

theorem running_of_completes (h : s.completes call = true) : s.isRunning = true := by
  cases call with
  | startLap => cases h
  | completeSector => exact (Bool.and_eq_true_iff.mp h).1
  | completeLap => exact h

theorem running_ending (h : s.completes call = true) :
    (s.ending stored c call).isRunning = true := by
  have hrunning := running_of_completes h
  obtain ⟨times, sector, start, delta, hending⟩ := ending_eq stored s c call
  rw [hending]
  exact hrunning

theorem changed_of_call {op : Op} {p : Call × Readings} (h : s.call op = some p) :
    ∃ lapTrigger sectorTrigger speed, s.changed op =
      { s with lapTrigger := lapTrigger, sectorTrigger := sectorTrigger, speed := speed } := by
  cases op with
  | lapTrigger on c => exact ⟨on, s.sectorTrigger, s.speed, rfl⟩
  | sectorTrigger on c => exact ⟨s.lapTrigger, on, s.speed, rfl⟩
  | speed speed c => exact ⟨s.lapTrigger, s.sectorTrigger, speed, rfl⟩
  | startLap c => exact ⟨s.lapTrigger, s.sectorTrigger, s.speed, rfl⟩
  | completeSector c => exact ⟨s.lapTrigger, s.sectorTrigger, s.speed, rfl⟩
  | completeLap c => exact ⟨s.lapTrigger, s.sectorTrigger, s.speed, rfl⟩
  | _ => cases h

end Effects

end LapTimer

end SpeeduinoDash
