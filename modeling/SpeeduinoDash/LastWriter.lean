import Mathlib.Algebra.Order.Ring.Rat
import SpeeduinoDash.CanParser
import SpeeduinoDash.Lib.Runs

set_option autoImplicit false

/-!
# The parser remembers the last frame of each id

What a run leaves in the parser is a function of the table it loaded last and of the last
accepted frame of each id since that load or the last reset.
-/
namespace SpeeduinoDash.CanParser
open Lib.Keyed Lib.Runs

section History

variable {R : Type}

def Op.signals : Op R → Option (List (CanSignalDef R))
  | .loadSignals table => some table.signals
  | _ => none

def loaded (ops : List (Op R)) : List (CanSignalDef R) := (ops.filterMap Op.signals).getLast?.getD []

def accept (frames : List CanFrame) : Op R → List CanFrame
  | .parseFrame frame _ => if frame.dlc > canMaxDlc then frames else frames ++ [frame]
  | _ => []

/-- The frames accepted since the last load or reset. -/
def accepted (ops : List (Op R)) : List CanFrame := run accept [] ops

theorem loaded_snoc (ops : List (Op R)) (op : Op R) :
    loaded (ops ++ [op]) = op.signals.getD (loaded ops) := by
  cases op <;> simp [loaded, Op.signals]

theorem accepted_snoc (ops : List (Op R)) (op : Op R) :
    accepted (ops ++ [op]) = accept (accepted ops) op := run_snoc accept [] ops op

end History

section Cleared

variable {R : Type} [OfScientific R]

theorem getSignalValue_loadSignals (p : CanParser R) (table : SignalTable R) (name : String) :
    (p.loadSignals table).getSignalValue name = none := by
  have hvalues := foldl_assign CanSignalDef.name
    (fun signal : CanSignalDef R => (⟨signal.name, 0.0, 0, false⟩ : ParsedSignal R))
    table.signals (fun _ => none) name
  change (table.signals.foldl _ (fun _ => none) name).bind _ = none
  rw [hvalues]
  cases lastWhere (fun signal => signal.name == name) table.signals <;> rfl

theorem getSignalValue_reset (p : CanParser R) (name : String) :
    p.reset.getSignalValue name = none := by
  change ((p.values name).map _).bind _ = none
  cases p.values name <;> rfl

end Cleared

section Values

variable {R : Type} [Add R] [Mul R] [NatCast R] [IntCast R]

def lastDecoded (signals : List (CanSignalDef R)) (frames : List CanFrame) (name : String) :
    Option R :=
  (signals.find? (fun signal => signal.name == name)).bind (fun signal =>
    (lastWhere (fun frame => frame.id == signal.canId) frames).map
      (fun frame => decodeSignal frame signal))

theorem lastDecoded_nil (signals : List (CanSignalDef R)) (name : String) :
    lastDecoded signals [] name = none := by
  rw [lastDecoded]
  cases signals.find? (fun signal => signal.name == name) <;> rfl

theorem lastDecoded_congr {signals : List (CanSignalDef R)} {xs ys : List CanFrame}
    (h : ∀ id, lastWhere (fun frame => frame.id == id) xs =
      lastWhere (fun frame => frame.id == id) ys) :
    lastDecoded signals xs = lastDecoded signals ys := by
  funext name
  rw [lastDecoded, lastDecoded]
  cases signals.find? (fun signal => signal.name == name) with
  | none => rfl
  | some signal => rw [Option.bind_some, Option.bind_some, h]

/-- `stored` is the table in the order of the multimap. -/
theorem lastDecoded_snoc {stored signals : List (CanSignalDef R)} (hperm : stored.Perm signals)
    (hnames : (signals.map CanSignalDef.name).Nodup) (frames : List CanFrame) (frame : CanFrame)
    (name : String) : lastDecoded signals (frames ++ [frame]) name =
      ((lastWhere (fun signal => signal.name == name)
        (stored.filter (fun signal => signal.canId == frame.id))).map (decodeSignal frame)).or
          (lastDecoded signals frames name) := by
  have hstored := (hperm.map CanSignalDef.name).nodup_iff.mpr hnames
  rw [lastWhere_filter_of_nodup CanSignalDef.name _ hstored,
    find?_perm_of_nodup CanSignalDef.name hperm hstored, lastDecoded, lastDecoded]
  cases signals.find? (fun signal => signal.name == name) with
  | none => rfl
  | some signal =>
    rw [Option.bind_some, Option.bind_some, lastWhere_snoc]
    by_cases hid : frame.id = signal.canId
    · simp [Option.filter, hid]
    · have hid' : ¬ signal.canId = frame.id := fun h => hid h.symm
      simp [Option.filter, hid, hid']

/-- What a frame says about a signal: of several with that name under its id, the last stored. -/
def reading (stored : List (CanSignalDef R)) (name : String) (frame : CanFrame) : Option R :=
  (lastWhere (fun signal => signal.name == name)
    (stored.filter (fun signal => signal.canId == frame.id))).map (decodeSignal frame)

/-- The definition whose reading a frame of this id leaves under the name. -/
def inForce {R : Type} (p : CanParser R) (canId : UInt32) (name : String) :
    Option (CanSignalDef R) :=
  lastWhere (fun signal => signal.name == name)
    (p.signalsByCanId.filter (fun signal => signal.canId == canId))

/-- The last reading, for tables in which several signals may share a name. -/
def lastReading (stored : List (CanSignalDef R)) (frames : List CanFrame) (name : String) :
    Option R :=
  (frames.filterMap (reading stored name)).getLast?

theorem lastReading_snoc (stored : List (CanSignalDef R)) (frames : List CanFrame)
    (frame : CanFrame) (name : String) : lastReading stored (frames ++ [frame]) name =
      (reading stored name frame).or (lastReading stored frames name) := by
  rw [lastReading, List.filterMap_append, List.getLast?_append, lastReading]
  cases hreading : reading stored name frame <;> simp [hreading]

theorem lastReading_eq_lastDecoded {stored signals : List (CanSignalDef R)}
    (hperm : stored.Perm signals) (hnames : (signals.map CanSignalDef.name).Nodup)
    (frames : List CanFrame) (name : String) :
    lastReading stored frames name = lastDecoded signals frames name := by
  induction frames using List.reverseRecOn with
  | nil => exact (lastDecoded_nil signals name).symm
  | append_singleton frames frame ih =>
    rw [lastReading_snoc, lastDecoded_snoc hperm hnames, ih, reading]

variable [OfScientific R] [Neg R] [LT R] [DecidableLT R] [Truncate R]

theorem parseFrame_rejected (p : CanParser R) {frame : CanFrame} (clockMs : ℕ)
    (h : frame.dlc > canMaxDlc) : p.parseFrame frame clockMs = p := if_pos h

theorem values_parseFrame (p : CanParser R) {frame : CanFrame} (clockMs : ℕ)
    (h : ¬ frame.dlc > canMaxDlc) (name : String) :
    (p.parseFrame frame clockMs).values name = ((p.inForce frame.id name).map (fun signal =>
      ⟨signal.name, decodeSignal frame signal, frame.timestampUs, true⟩)).or (p.values name) := by
  rw [parseFrame, if_neg h]
  exact foldl_assign CanSignalDef.name (fun signal => (⟨signal.name, decodeSignal frame signal,
    frame.timestampUs, true⟩ : ParsedSignal R)) (p.equalRange frame.id) p.values name

theorem getSignalValue_parseFrame (p : CanParser R) {frame : CanFrame} (clockMs : ℕ)
    (h : ¬ frame.dlc > canMaxDlc) (name : String) :
    (p.parseFrame frame clockMs).getSignalValue name =
      (reading p.signalsByCanId name frame).or (p.getSignalValue name) := by
  have hreading : reading p.signalsByCanId name frame =
      (p.inForce frame.id name).map (decodeSignal frame) := rfl
  rw [getSignalValue, values_parseFrame p clockMs h, hreading]
  cases p.inForce frame.id name <;> rfl

theorem engineData_parseFrame (p : CanParser R) {frame : CanFrame} (clockMs : ℕ)
    (h : ¬ frame.dlc > canMaxDlc) : (p.parseFrame frame clockMs).engineData =
      updateEngineData (p.parseFrame frame clockMs).getSignalValue (getMonotonicMs clockMs) := by
  rw [parseFrame, if_neg h]
  rfl

theorem lastUpdateTimestamp_parseFrame (p : CanParser R) {frame : CanFrame} (clockMs : ℕ)
    (h : ¬ frame.dlc > canMaxDlc) :
    (p.parseFrame frame clockMs).lastUpdateTimestamp = getMonotonicMs clockMs := by
  rw [parseFrame, if_neg h]

theorem signalsByCanId_parseFrame (p : CanParser R) (frame : CanFrame) (clockMs : ℕ) :
    (p.parseFrame frame clockMs).signalsByCanId = p.signalsByCanId := by
  rw [parseFrame]
  split <;> rfl

theorem run_signals (ops : List (Op R)) :
    (run step ({} : CanParser R) ops).signalsByCanId.Perm (loaded ops) := by
  refine run_history step (fun ops p => p.signalsByCanId.Perm (loaded ops)) (List.Perm.refl _)
    ops ?_
  intro pre op _ ih
  rw [loaded_snoc]
  cases op with
  | loadSignals table => exact table.perm
  | parseFrame frame clockMs =>
    rw [step, signalsByCanId_parseFrame]
    exact ih
  | reset => exact ih

theorem run_lastReading (ops : List (Op R)) (name : String) :
    (run step ({} : CanParser R) ops).getSignalValue name =
      lastReading (run step ({} : CanParser R) ops).signalsByCanId (accepted ops) name := by
  refine run_history step (fun ops p =>
    p.getSignalValue name = lastReading p.signalsByCanId (accepted ops) name) rfl ops ?_
  intro pre op _ ih
  rw [accepted_snoc]
  cases op with
  | loadSignals table => exact getSignalValue_loadSignals _ table name
  | parseFrame frame clockMs =>
    rw [step, signalsByCanId_parseFrame, accept]
    by_cases hdlc : frame.dlc > canMaxDlc
    · rw [parseFrame_rejected _ clockMs hdlc, if_pos hdlc, ih]
    · rw [getSignalValue_parseFrame _ clockMs hdlc, if_neg hdlc, lastReading_snoc, ih]
  | reset => exact getSignalValue_reset _ name

theorem run_getSignalValue (ops : List (Op R))
    (hnames : ((loaded ops).map CanSignalDef.name).Nodup) (name : String) :
    (run step ({} : CanParser R) ops).getSignalValue name =
      lastDecoded (loaded ops) (accepted ops) name := by
  rw [run_lastReading]
  exact lastReading_eq_lastDecoded (run_signals ops) hnames (accepted ops) name

theorem run_engineData (ops : List (Op R)) (h : accepted ops ≠ []) :
    (run step ({} : CanParser R) ops).engineData =
      updateEngineData (run step ({} : CanParser R) ops).getSignalValue
        (run step ({} : CanParser R) ops).lastUpdateTimestamp := by
  refine run_history step (fun ops p => accepted ops ≠ [] →
    p.engineData = updateEngineData p.getSignalValue p.lastUpdateTimestamp) ?_ ops ?_ h
  · intro hnil
    exact absurd rfl hnil
  · intro pre op _ ih hne
    rw [accepted_snoc] at hne
    cases op with
    | loadSignals table => exact absurd rfl hne
    | parseFrame frame clockMs =>
      rw [step]
      by_cases hdlc : frame.dlc > canMaxDlc
      · rw [accept, if_pos hdlc] at hne
        rw [parseFrame_rejected _ clockMs hdlc]
        exact ih hne
      · rw [engineData_parseFrame _ clockMs hdlc, lastUpdateTimestamp_parseFrame _ clockMs hdlc]
    | reset => exact absurd rfl hne

def untimed (data : EngineData) : EngineData := { data with timestampMs := 0 }

theorem untimed_engineData_congr {ops ops' : List (Op R)}
    (hnames : ((loaded ops).map CanSignalDef.name).Nodup) (hloaded : loaded ops' = loaded ops)
    (hne : accepted ops ≠ []) (hne' : accepted ops' ≠ [])
    (hlast : ∀ id, lastWhere (fun frame => frame.id == id) (accepted ops') =
      lastWhere (fun frame => frame.id == id) (accepted ops)) :
    untimed (run step ({} : CanParser R) ops').engineData =
      untimed (run step ({} : CanParser R) ops).engineData := by
  have hvalues : (run step ({} : CanParser R) ops').getSignalValue =
      (run step ({} : CanParser R) ops).getSignalValue := by
    funext name
    rw [run_getSignalValue ops hnames, run_getSignalValue ops' (by rwa [hloaded]), hloaded,
      lastDecoded_congr hlast]
  rw [run_engineData ops hne, run_engineData ops' hne', hvalues]
  rfl

/-- Last writer wins: a value is present exactly if its id was parsed since the load or the last
    reset, and is then the decode of the last such frame. So the engine data depend on the last
    frame of each id only: neither the order of different ids nor a repeated frame matters. -/
theorem last_writer_wins (ops : List (Op R))
    (hnames : ((loaded ops).map CanSignalDef.name).Nodup) :
    (∀ signal ∈ loaded ops, (run step ({} : CanParser R) ops).getSignalValue signal.name =
      (lastWhere (fun frame => frame.id == signal.canId) (accepted ops)).map
        (fun frame => decodeSignal frame signal)) ∧
    (∀ name, (∀ signal ∈ loaded ops, signal.name ≠ name) →
      (run step ({} : CanParser R) ops).getSignalValue name = none) ∧
    ∀ ops' : List (Op R), loaded ops' = loaded ops → accepted ops ≠ [] → accepted ops' ≠ [] →
      ((∀ id, lastWhere (fun frame => frame.id == id) (accepted ops') =
          lastWhere (fun frame => frame.id == id) (accepted ops)) ∨
        (∀ id, (accepted ops').filter (fun frame => frame.id == id) =
          (accepted ops).filter (fun frame => frame.id == id)) ∨
        (∃ xs ys zs frame, (∀ other ∈ ys, other.id ≠ frame.id) ∧
          accepted ops = xs ++ frame :: ys ++ zs ∧
          accepted ops' = xs ++ frame :: ys ++ frame :: zs)) →
      untimed (run step ({} : CanParser R) ops').engineData =
        untimed (run step ({} : CanParser R) ops).engineData := by
  refine ⟨?_, ?_, ?_⟩
  · intro signal hmem
    have hfind := find?_of_nodup CanSignalDef.name hnames hmem
    rw [run_getSignalValue ops hnames, lastDecoded, hfind, Option.bind_some]
  · intro name hnone
    have hfind : (loaded ops).find? (fun s => s.name == name) = none := by
      rw [List.find?_eq_none]
      intro signal hmem
      simpa using hnone signal hmem
    rw [run_getSignalValue ops hnames, lastDecoded, hfind, Option.bind_none]
  · intro ops' hloaded hne hne' hsame
    apply untimed_engineData_congr hnames hloaded hne hne'
    intro id
    rcases hsame with hlast | hfilter | ⟨xs, ys, zs, frame, hys, hops, hops'⟩
    · exact hlast id
    · exact lastWhere_congr _ (hfilter id)
    · rw [hops, hops']
      apply lastWhere_repeat
      intro hid other hmem
      rw [beq_iff_eq] at hid
      rw [beq_eq_false_iff_ne, ← hid]
      exact hys other hmem

end Values

def rpmSignal : CanSignalDef ℚ :=
  { name := "rpm", canId := 0x360, lengthBits := 16, isBigEndian := true, scale := 1, offset := 0 }

def coolantSignal : CanSignalDef ℚ :=
  { name := "coolant_temp", canId := 0x3E0, lengthBits := 8, scale := 1, offset := -40 }

def rpmFrame : CanFrame := { id := 0x360, dlc := 8, data := #v[0x0B, 0xB8, 0, 0, 0, 0, 0, 0] }

def coolantFrame : CanFrame := { id := 0x3E0, dlc := 8, data := #v[130, 0, 0, 0, 0, 0, 0, 0] }

theorem last_writer_wins_swapped :
    let load := Op.loadSignals (.inOrder [rpmSignal, coolantSignal])
    let ops := [load, .parseFrame rpmFrame 5, .parseFrame coolantFrame 6]
    let ops' := [load, .parseFrame coolantFrame 7, .parseFrame rpmFrame 8]
    (run step {} ops).getSignalValue "rpm" = some 3000 ∧
      untimed (run step {} ops').engineData = untimed (run step {} ops).engineData := by
  intro load ops ops'
  have hnames : ((loaded ops).map CanSignalDef.name).Nodup := by decide
  obtain ⟨hvalue, -, hdata⟩ := last_writer_wins ops hnames
  refine ⟨?_, ?_⟩
  · refine (hvalue rpmSignal List.mem_cons_self).trans ?_
    decide +kernel
  · refine hdata ops' rfl (by decide) (by decide) (.inr (.inl ?_))
    intro id
    change [coolantFrame, rpmFrame].filter _ = [rpmFrame, coolantFrame].filter _
    by_cases hid : id = 0x360
    · subst hid
      decide
    · have hrpm : (rpmFrame.id == id) = false := beq_false_of_ne (fun h => hid h.symm)
      simp [List.filter_cons, hrpm]

end SpeeduinoDash.CanParser
