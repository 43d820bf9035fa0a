import SpeeduinoDash.BusState
import SpeeduinoDash.ErrorFrames

set_option autoImplicit false

/-!
# The time since the last error

The constructor marks that there was no error with the smallest time point. A reset puts the epoch
there.
-/
namespace SpeeduinoDash.CanErrorHandler
open Lib.LockedCalls Lib.Runs

def IsReading (t : ℤ) : Prop := 0 ≤ t ∧ t ≤ millisecondsMax

def Operation.InRange : Operation → Prop
  | .processErrorFrame now _ _ => IsReading now
  | .resetStats => True

def noteError (_ : Option ℤ) : Operation → Option ℤ
  | .processErrorFrame now _ _ => some now
  | .resetStats => none

def Operation.isReset : Operation → Bool
  | .processErrorFrame _ _ _ => false
  | .resetStats => true

def lastErrorOf (ops : List Operation) : Option ℤ := run noteError none ops

theorem lastError_frame (w : Watched) (now : ℤ) (canId : UInt32) (data : Vector UInt8 8) :
    (step w (.processErrorFrame now canId data)).handler.stats.lastError = now := by
  rw [handler_step, Operation.body]
  simp [processErrorFrame, run_append, read_ifSet _ (fun o => o.object.stats.lastError)]

theorem lastError_reset (w : Watched) : (step w .resetStats).handler.stats.lastError = 0 := rfl

theorem lastError_run (ops : List Operation) :
    (run step ⟨{}, []⟩ ops).handler.stats.lastError =
      (lastErrorOf ops).getD (if ops.any Operation.isReset then 0 else timePointMin) := by
  induction ops using List.reverseRecOn with
  | nil => rfl
  | append_singleton ops op ih =>
    rw [run_snoc, lastErrorOf, run_snoc]
    cases op with
    | processErrorFrame now canId data => exact lastError_frame _ now canId data
    | resetStats =>
      have hreset : (ops ++ [Operation.resetStats]).any Operation.isReset = true := by
        simp [Operation.isReset]
      rw [lastError_reset, if_pos hreset]
      rfl

theorem lastErrorOf_reading {ops : List Operation} (h : ∀ op ∈ ops, op.InRange) {t : ℤ}
    (hlast : lastErrorOf ops = some t) : IsReading t := by
  cases ops using List.reverseRecOn with
  | nil => cases hlast
  | append_singleton ops op =>
    rw [lastErrorOf, run_snoc] at hlast
    have hop := h op (by simp)
    cases op with
    | processErrorFrame now canId data =>
      cases hlast
      exact hop
    | resetStats => cases hlast

/-- The largest duration stands for no error, and otherwise the time since the last one is told. -/
structure TimeTold (last : Option ℤ) (now told : ℤ) : Prop where
  max_iff : told = millisecondsMax ↔ last = none
  elapsed : ∀ t, last = some t → told = (now - t).tdiv 1000000

theorem tdiv_lt_max {now t : ℤ} (hnow : IsReading now) (ht : IsReading t) :
    (now - t).tdiv 1000000 < millisecondsMax := by
  obtain ⟨-, hle⟩ := hnow
  obtain ⟨hpos, -⟩ := ht
  have hle' : now - t ≤ millisecondsMax := by omega
  have hquotient := Int.tdiv_le_tdiv (show (0 : ℤ) < 1000000 by decide) hle'
  exact Int.lt_of_le_of_lt hquotient (by decide)

/-- The largest duration is told for no error until the first reset, and afterwards only what has
    passed since an error. -/
theorem timeTold_iff (ops : List Operation) (hops : ∀ op ∈ ops, op.InRange) (now : ℤ)
    (hnow : IsReading now) :
    TimeTold (lastErrorOf ops) now ((run step ⟨{}, []⟩ ops).handler.timeSinceLastError now) ↔
      lastErrorOf ops ≠ none ∨ ops.any Operation.isReset = false := by
  rw [timeSinceLastError, lastError_run]
  have hmin : ∀ t, IsReading t → t ≠ timePointMin := by
    intro t ht heq
    rw [heq] at ht
    exact absurd ht.1 (by decide)
  cases hlast : lastErrorOf ops with
  | some t =>
    have ht := lastErrorOf_reading hops hlast
    rw [Option.getD_some, if_neg (hmin t ht)]
    refine iff_of_true ⟨?_, ?_⟩ (.inl nofun)
    · exact iff_of_false (Int.ne_of_lt (tdiv_lt_max hnow ht)) nofun
    · rintro t' ⟨⟩
      rfl
  | none =>
    rw [Option.getD_none]
    by_cases hreset : ops.any Operation.isReset = true
    · have hzero : IsReading 0 := ⟨by decide, by decide⟩
      rw [if_pos hreset, if_neg (hmin 0 hzero)]
      refine iff_of_false (fun htold => ?_) (by simp [hreset])
      exact Int.ne_of_lt (tdiv_lt_max hnow hzero) (htold.max_iff.mpr rfl)
    · rw [if_neg hreset, if_pos rfl]
      exact iff_of_true ⟨iff_of_true rfl rfl, nofun⟩ (.inr (Bool.eq_false_iff.mpr hreset))

def errorAfterReset : List Operation :=
  [.resetStats, .processErrorFrame 5000000 0 (Vector.replicate 8 0)]

theorem timeTold_iff_errorAfterReset :
    TimeTold (lastErrorOf errorAfterReset) 12000000
      ((run step ⟨{}, []⟩ errorAfterReset).handler.timeSinceLastError 12000000) ↔
      lastErrorOf errorAfterReset ≠ none ∨ errorAfterReset.any Operation.isReset = false :=
  timeTold_iff errorAfterReset (by
    intro op hop
    simp only [errorAfterReset, List.mem_cons, List.not_mem_nil, or_false] at hop
    rcases hop with rfl | rfl
    · trivial
    · exact ⟨by decide, by decide⟩) 12000000 ⟨by decide, by decide⟩

/-- Ten seconds after the start, with a reset and no error. -/
theorem reset_told_as_error :
    lastErrorOf [.resetStats] = none ∧
      (run step ⟨{}, []⟩ [.resetStats]).handler.timeSinceLastError 10000000000 = 10000 ∧
      ¬ TimeTold (lastErrorOf [.resetStats]) 10000000000
        ((run step ⟨{}, []⟩ [.resetStats]).handler.timeSinceLastError 10000000000) := by
  refine ⟨rfl, by decide, fun htold => ?_⟩
  exact absurd (htold.max_iff.mpr rfl) (by decide)

end SpeeduinoDash.CanErrorHandler
