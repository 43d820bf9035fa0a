import Mathlib.Tactic.Linarith
import Mathlib.Tactic.NormNum
import SpeeduinoDash.CanErrorHandler

set_option autoImplicit false

/-!
# The health of the bus

The rates are in `float`; here they are exact. They are zero until a second has passed.
-/
namespace SpeeduinoDash
open Lib.Runs

structure HealthMetrics where
  state : CanBusState := .errorActive
  errorRate : ℚ := 0
  frameRate : ℚ := 0
  totalFrames : UInt64 := 0
  totalErrors : UInt64 := 0
  isHealthy : Bool := true

structure CanBusMonitor where
  frameCount : UInt64 := 0
  errorCount : UInt64 := 0
  startTime : ℤ

namespace CanBusMonitor

def recordFrame (m : CanBusMonitor) (isError : Bool) : CanBusMonitor :=
  { m with
    frameCount := m.frameCount + 1
    errorCount := if isError then m.errorCount + 1 else m.errorCount }

/-- The duration is cast to whole seconds. -/
def elapsedSeconds (m : CanBusMonitor) (now : ℤ) : ℤ := (now - m.startTime).tdiv 1000000000

def getMetrics (m : CanBusMonitor) (errorHandler : CanErrorHandler) (now : ℤ) : HealthMetrics :=
  let elapsed := m.elapsedSeconds now
  let metrics : HealthMetrics :=
    { state := errorHandler.currentState
      totalFrames := m.frameCount
      totalErrors := m.errorCount }
  let metrics :=
    if elapsed > 0 then
      { metrics with
        frameRate := metrics.totalFrames.toNat / elapsed
        errorRate := metrics.totalErrors.toNat / elapsed }
    else metrics
  { metrics with
    isHealthy := metrics.state != .busOff && metrics.errorRate < 0.01 * metrics.frameRate }

def reset (_ : CanBusMonitor) (now : ℤ) : CanBusMonitor := { startTime := now }

inductive Op where
  | recordFrame (isError : Bool)
  | reset (now : ℤ)

def step (m : CanBusMonitor) : Op → CanBusMonitor
  | .recordFrame isError => m.recordFrame isError
  | .reset now => m.reset now

theorem share_iff (errors frames : ℕ) : (errors : ℚ) < 0.01 * frames ↔ 100 * errors < frames := by
  have hcast : (100 * errors < frames) ↔ (100 * errors : ℚ) < frames := by
    exact_mod_cast Iff.rfl
  rw [hcast]
  constructor
  · intro h
    linarith
  · intro h
    linarith

theorem isHealthy_iff (m : CanBusMonitor) (h : CanErrorHandler) (now : ℤ) :
    (m.getMetrics h now).isHealthy = true ↔ h.currentState ≠ .busOff ∧
      0 < m.elapsedSeconds now ∧ 100 * m.errorCount.toNat < m.frameCount.toNat := by
  unfold getMetrics
  by_cases hpassed : m.elapsedSeconds now > 0
  · have hpos : (0 : ℚ) < m.elapsedSeconds now := by exact_mod_cast hpassed
    simp only [if_pos hpassed, Bool.and_eq_true, bne_iff_ne, decide_eq_true_eq]
    rw [← mul_div_assoc, div_lt_div_iff_of_pos_right hpos, share_iff]
    exact and_congr_right (fun _ => (and_iff_right hpassed).symm)
  · simp [hpassed]

section History

def noteFrame (frames : List Bool) : Op → List Bool
  | .recordFrame isError => frames ++ [isError]
  | .reset _ => []

/-- The frames since the last reset, each with whether it is an error. -/
def framesOf (ops : List Op) : List Bool := run noteFrame [] ops

def errors (frames : List Bool) : ℕ := frames.count true

theorem errors_le (frames : List Bool) : errors frames ≤ frames.length := List.count_le_length

theorem errors_snoc (frames : List Bool) (isError : Bool) :
    errors (frames ++ [isError]) = errors frames + if isError then 1 else 0 := by
  rw [errors, List.count_append]
  cases isError <;> rfl

/-- The counters hold the two numbers, as far as 64 bits go. -/
theorem counts_run (start : ℤ) (ops : List Op) :
    (run step { startTime := start } ops).frameCount = UInt64.ofNat (framesOf ops).length ∧
      (run step { startTime := start } ops).errorCount = UInt64.ofNat (errors (framesOf ops)) := by
  induction ops using List.reverseRecOn with
  | nil => exact ⟨rfl, rfl⟩
  | append_singleton ops op ih =>
    obtain ⟨hframes, herrors⟩ := ih
    rw [run_snoc, framesOf, run_snoc]
    cases op with
    | reset now => exact ⟨rfl, rfl⟩
    | recordFrame isError =>
      constructor
      · change (run step _ ops).frameCount + 1 = UInt64.ofNat (framesOf ops ++ [isError]).length
        rw [hframes, List.length_append, List.length_singleton, UInt64.ofNat_add]
        rfl
      · change (if isError then (run step _ ops).errorCount + 1 else (run step _ ops).errorCount) =
          UInt64.ofNat (errors (framesOf ops ++ [isError]))
        rw [herrors, errors_snoc]
        cases isError with
        | false => rfl
        | true => exact (UInt64.ofNat_add _ 1).symm

/-- Fewer than one frame in a hundred is an error, or none at all. -/
def Healthy (state : CanBusState) (frames : List Bool) : Prop :=
  state ≠ .busOff ∧ (errors frames = 0 ∨ 100 * errors frames < frames.length)

/-- The bus is off, or has too many errors, or there were frames for a second. Beyond 64 bits the
    counters have to agree with the numbers. -/
def Judged (state : CanBusState) (frames : List Bool) (elapsed : ℤ) : Prop :=
  state = .busOff ∨
    if frames.length < 2 ^ 64 then
      (0 < errors frames ∧ frames.length ≤ 100 * errors frames) ∨ (0 < elapsed ∧ frames ≠ [])
    else
      (0 < elapsed ∧ 100 * (errors frames % 2 ^ 64) < frames.length % 2 ^ 64) ↔
        (errors frames = 0 ∨ 100 * errors frames < frames.length)

theorem few_iff {frames : List Bool} {elapsed : ℤ} :
    ((0 < elapsed ∧ 100 * errors frames < frames.length) ↔
      (errors frames = 0 ∨ 100 * errors frames < frames.length)) ↔
      (0 < errors frames ∧ frames.length ≤ 100 * errors frames) ∨ (0 < elapsed ∧ frames ≠ []) := by
  have hle := errors_le frames
  rw [Ne, ← List.length_eq_zero_iff]
  constructor
  · intro hsame
    by_cases hmany : 0 < errors frames ∧ frames.length ≤ 100 * errors frames
    · exact .inl hmany
    · obtain ⟨hpassed, hfew⟩ := hsame.mpr (by omega)
      exact .inr ⟨hpassed, by omega⟩
  · rintro (⟨hpos, hmany⟩ | ⟨hpassed, hsome⟩)
    · exact iff_of_false (by omega) (by omega)
    · constructor
      · exact fun hfew => .inr hfew.2
      · exact fun hfew => ⟨hpassed, by omega⟩

/-- What is reported agrees with the frames since the start or the last reset exactly there. -/
theorem isHealthy_judged_iff (start : ℤ) (ops : List Op) (h : CanErrorHandler) (now : ℤ) :
    (((run step { startTime := start } ops).getMetrics h now).isHealthy = true ↔
      Healthy h.currentState (framesOf ops)) ↔
      Judged h.currentState (framesOf ops)
        ((run step { startTime := start } ops).elapsedSeconds now) := by
  obtain ⟨hframes, herrors⟩ := counts_run start ops
  rw [isHealthy_iff, hframes, herrors, UInt64.toNat_ofNat', UInt64.toNat_ofNat']
  unfold Healthy Judged
  by_cases hoff : h.currentState = .busOff
  · simp [hoff]
  · have hle := errors_le (framesOf ops)
    rw [and_congr_right_iff]
    by_cases hfits : (framesOf ops).length < 2 ^ 64
    · rw [if_pos hfits, Nat.mod_eq_of_lt hfits, Nat.mod_eq_of_lt (hle.trans_lt hfits)]
      simp only [Ne, hoff, not_false_eq_true, true_imp_iff, false_or]
      exact few_iff
    · rw [if_neg hfits]
      simp only [Ne, hoff, not_false_eq_true, true_imp_iff, false_or]

/-- A new monitor after half a second. -/
theorem new_monitor_unhealthy :
    ((run step { startTime := 0 } []).getMetrics {} 500000000).isHealthy = false ∧
      Healthy (CanErrorHandler.currentState {}) (framesOf []) := by
  refine ⟨?_, nofun, .inl rfl⟩
  rw [Bool.eq_false_iff, Ne, isHealthy_iff]
  decide

end History

end CanBusMonitor

end SpeeduinoDash
