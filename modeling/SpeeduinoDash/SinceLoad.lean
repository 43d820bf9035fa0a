import SpeeduinoDash.LastWriter

set_option autoImplicit false

/-!
# Frames after a load

What the parser knows after a table has been loaded and some frames have arrived.
-/
namespace SpeeduinoDash.CanParser
open Lib.Keyed Lib.Runs

section Since

variable {R : Type}

/-- The table is loaded after `before`, and then frames arrive, each with the time it is parsed. -/
def since (before : List (Op R)) (table : SignalTable R) (frames : List (CanFrame × ℕ)) :
    List (Op R) :=
  before ++ .loadSignals table :: frames.map (fun f => .parseFrame f.1 f.2)

def decodable (frames : List (CanFrame × ℕ)) : List CanFrame :=
  (frames.map Prod.fst).filter (fun frame => ¬ frame.dlc > canMaxDlc)

theorem since_snoc (before : List (Op R)) (table : SignalTable R) (frames : List (CanFrame × ℕ))
    (f : CanFrame × ℕ) : since before table (frames ++ [f]) =
      since before table frames ++ [.parseFrame f.1 f.2] := by
  simp [since]

theorem accepted_since (before : List (Op R)) (table : SignalTable R)
    (frames : List (CanFrame × ℕ)) : accepted (since before table frames) = decodable frames := by
  induction frames using List.reverseRecOn with
  | nil => exact accepted_snoc before (.loadSignals table)
  | append_singleton frames f ih =>
    rw [since_snoc, accepted_snoc, ih, accept, decodable, decodable, List.map_append,
      List.filter_append]
    by_cases hdlc : f.1.dlc > canMaxDlc
    · simp [hdlc]
    · have hle : f.1.dlc ≤ canMaxDlc := UInt8.not_lt.mp hdlc
      simp [hdlc, hle]

variable [OfScientific R] [Add R] [Mul R] [NatCast R] [IntCast R]
variable [Neg R] [LT R] [DecidableLT R] [Truncate R]

theorem signals_since (before : List (Op R)) (table : SignalTable R)
    (frames : List (CanFrame × ℕ)) :
    (run step ({} : CanParser R) (since before table frames)).signalsByCanId = table.stored := by
  induction frames using List.reverseRecOn with
  | nil => exact congrArg signalsByCanId (run_snoc step {} before (.loadSignals table))
  | append_singleton frames f ih => rw [since_snoc, run_snoc, step, signalsByCanId_parseFrame, ih]

/-- Until a frame is decoded the engine data are those of the time before the table. -/
theorem engineData_since (before : List (Op R)) (table : SignalTable R)
    (frames : List (CanFrame × ℕ)) (h : decodable frames = []) :
    (run step ({} : CanParser R) (since before table frames)).engineData =
      (run step ({} : CanParser R) before).engineData := by
  induction frames using List.reverseRecOn with
  | nil =>
    change (run step {} (before ++ [.loadSignals table])).engineData = _
    rw [run_snoc]
    rfl
  | append_singleton frames f ih =>
    rw [decodable, List.map_append, List.filter_append, List.append_eq_nil_iff] at h
    have hdlc : f.1.dlc > canMaxDlc := by
      have hlast := h.2
      simpa using hlast
    rw [since_snoc, run_snoc, step, parseFrame_rejected _ _ hdlc]
    exact ih h.1

theorem getSignalValue_since (before : List (Op R)) (table : SignalTable R)
    (frames : List (CanFrame × ℕ)) :
    (run step ({} : CanParser R) (since before table frames)).getSignalValue =
      lastReading table.stored (decodable frames) := by
  funext name
  rw [run_lastReading, signals_since, accepted_since]

end Since

end SpeeduinoDash.CanParser
