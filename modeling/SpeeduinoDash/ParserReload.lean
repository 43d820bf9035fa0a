import SpeeduinoDash.Freshness

set_option autoImplicit false

/-!
# What a load and a reset leave behind

A load clears the table and the values. The engine data and the time of the last frame stay, until
the next frame overwrites both.
-/
namespace SpeeduinoDash.CanParser
open EngineData Lib.Runs

variable {R : Type}

/-- Two parsers that no observer tells apart now. -/
structure Alike (p q : CanParser R) : Prop where
  values : ∀ name, p.getSignalValue name = q.getSignalValue name
  engineData : p.getEngineData = q.getEngineData
  fresh : ∀ timeoutMs clockMs, p.isDataFresh timeoutMs clockMs = q.isDataFresh timeoutMs clockMs

/-- Two parsers with one table that agree on all that later frames and observers use. -/
structure SameView (p q : CanParser R) : Prop where
  signals : p.signalsByCanId = q.signalsByCanId
  values : p.getSignalValue = q.getSignalValue
  engineData : p.engineData = q.engineData
  lastUpdate : p.lastUpdateTimestamp = q.lastUpdateTimestamp

theorem SameView.alike {p q : CanParser R} (h : SameView p q) : Alike p q where
  values name := congrFun h.values name
  engineData := h.engineData
  fresh timeoutMs clockMs := by rw [isDataFresh, isDataFresh, h.lastUpdate]

theorem updateEngineData_ne_default [Mul R] [Neg R] [LT R] [DecidableLT R] [OfScientific R]
    [Truncate R] (lookup : String → Option R) (timestampMs : UInt32) :
    updateEngineData lookup timestampMs ≠ {} := by
  intro h
  have hflags : (updateEngineData lookup timestampMs).flags &&& flagCanOk ≠ 0 :=
    statusFlags_canOk lookup (measurements lookup timestampMs)
  rw [h] at hflags
  exact hflags rfl

section Frames

variable [OfScientific R] [Add R] [Mul R] [NatCast R] [IntCast R]
variable [Neg R] [LT R] [DecidableLT R] [Truncate R]

def parseAll (p : CanParser R) (frames : List (CanFrame × ℕ)) : CanParser R :=
  run (fun p frame => p.parseFrame frame.1 frame.2) p frames

theorem SameView.parseFrame {p q : CanParser R} (h : SameView p q) (frame : CanFrame)
    (clockMs : ℕ) : SameView (p.parseFrame frame clockMs) (q.parseFrame frame clockMs) := by
  by_cases hdlc : frame.dlc > canMaxDlc
  · rw [parseFrame_rejected p clockMs hdlc, parseFrame_rejected q clockMs hdlc]
    exact h
  · have hvalues : (p.parseFrame frame clockMs).getSignalValue =
        (q.parseFrame frame clockMs).getSignalValue := by
      funext name
      rw [getSignalValue_parseFrame p clockMs hdlc, getSignalValue_parseFrame q clockMs hdlc,
        h.signals, h.values]
    constructor
    · rw [signalsByCanId_parseFrame, signalsByCanId_parseFrame, h.signals]
    · exact hvalues
    · rw [engineData_parseFrame p clockMs hdlc, engineData_parseFrame q clockMs hdlc, hvalues]
    · rw [lastUpdateTimestamp_parseFrame p clockMs hdlc,
        lastUpdateTimestamp_parseFrame q clockMs hdlc]

theorem SameView.parseAll {p q : CanParser R} (h : SameView p q) (frames : List (CanFrame × ℕ)) :
    SameView (p.parseAll frames) (q.parseAll frames) :=
  run_related _ SameView (fun _ _ frame hview => hview.parseFrame frame.1 frame.2) h frames

/-- After `before` and a load of the table the parser does as a new one with that table does. -/
def LoadIsolated (before : List (Op R)) (table : SignalTable R) : Prop :=
  ∀ frames, Alike (((run step {} before).loadSignals table).parseAll frames)
    (({} : CanParser R).loadSignals table |>.parseAll frames)

def ResetIsolated (before : List (Op R)) : Prop :=
  ∀ table : SignalTable R, table.stored = (run step ({} : CanParser R) before).signalsByCanId →
    ∀ frames, Alike ((run step {} before).reset.parseAll frames)
      (({} : CanParser R).loadSignals table |>.parseAll frames)

theorem resetIsolated (before : List (Op R)) : ResetIsolated before := by
  intro table hstored frames
  apply SameView.alike
  apply SameView.parseAll
  constructor
  · exact hstored.symm
  · funext name
    rw [getSignalValue_reset, getSignalValue_loadSignals]
  · rfl
  · rfl

theorem engineData_eq_default_iff (before : List (Op R)) :
    (run step ({} : CanParser R) before).engineData = {} ↔ acceptedTimes before = [] := by
  refine run_history step (fun ops p => p.engineData = {} ↔ acceptedTimes ops = [])
    (iff_of_true rfl rfl) before ?_
  intro pre op _ ih
  rw [acceptedTimes_snoc]
  cases op with
  | loadSignals table => exact ih
  | parseFrame frame clockMs =>
    rw [step, acceptTime]
    by_cases hdlc : frame.dlc > canMaxDlc
    · rw [parseFrame_rejected _ clockMs hdlc, if_pos hdlc]
      exact ih
    · rw [engineData_parseFrame _ clockMs hdlc, if_neg hdlc]
      exact iff_of_false (updateEngineData_ne_default _ _)
        (List.append_ne_nil_of_right_ne_nil _ (List.cons_ne_nil _ _))
  | reset => exact iff_of_true rfl rfl

/-- A load starts afresh exactly if no frame has been accepted since the parser was made or reset.
    A reset always does. -/
theorem reload_isolated_iff (before : List (Op R)) (table : SignalTable R) :
    LoadIsolated before table ∧ ResetIsolated before ↔ acceptedTimes before = [] := by
  rw [and_iff_left (resetIsolated before)]
  constructor
  · intro h
    exact (engineData_eq_default_iff before).mp (h []).engineData
  · intro hnone frames
    apply SameView.alike
    apply SameView.parseAll
    have hlast := run_lastUpdateTimestamp before
    rw [hnone] at hlast
    exact ⟨rfl, rfl, (engineData_eq_default_iff before).mpr hnone, hlast⟩

end Frames

theorem reload_keeps_engine_data :
    ¬ ∀ (before : List (Op ℚ)) (table : SignalTable ℚ),
      LoadIsolated before table ∧ ResetIsolated before := by
  intro hclaim
  have hdata := ((hclaim [.loadSignals (.inOrder [rpmSignal]), .parseFrame rpmFrame 1000]
    (.inOrder [coolantSignal])).1 []).engineData
  exact absurd (congrArg EngineData.rpm hdata) (by decide +kernel)

end SpeeduinoDash.CanParser
