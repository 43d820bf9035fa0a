import SpeeduinoDash.LastWriter
import SpeeduinoDash.RawValues

set_option autoImplicit false

/-!
# Frames too short for a signal

The decoder reads the bytes that are there, nothing where even the first is missing, and the
parser stores what it gets as valid.
-/
namespace SpeeduinoDash
open Lib.ByteOrder Lib.Keyed

/-- The frame ends before the last bit of the signal. -/
def Truncated {R : Type} (frame : CanFrame) (signal : CanSignalDef R) : Prop :=
  8 * frame.dlc.toNat <
    8 * signal.startByte.toNat + signal.startBit.toNat + signal.lengthBits.toNat

def arrivedReading (frame : CanFrame) (signal : CanSignalDef ℚ) : ℚ :=
  signalInt frame signal * signal.scale + signal.offset

/-- A truncated signal is made of all the bytes that are left, where its start bit is one. -/
theorem assembled_truncated {R : Type} {frame : CanFrame} {signal : CanSignalDef R}
    (hbit : signal.startBit.toNat < 8) (h : Truncated frame signal) :
    assembled frame signal = if signal.isBigEndian
      then bigEndian (frame.payload.drop signal.startByte.toNat)
      else littleEndian (frame.payload.drop signal.startByte.toNat) := by
  have hall : arrived frame signal.startByte.toNat signal.bytesNeeded =
      frame.payload.drop signal.startByte.toNat := by
    apply List.take_of_length_le
    unfold Truncated at h
    simp only [CanFrame.payload, List.length_drop, List.length_map, List.length_range,
      CanSignalDef.bytesNeeded]
    omega
  rw [assembled, hall]

theorem arrivedReading_missing {frame : CanFrame} {signal : CanSignalDef ℚ}
    (h : frame.dlc ≤ signal.startByte) : arrivedReading frame signal = signal.offset := by
  have hnone : rawValue frame signal = 0 := by
    rw [rawValue, if_neg]
    rintro ⟨hinside, -⟩
    exact absurd h (UInt8.not_le.mpr hinside)
  have hzero : signalInt frame signal = 0 := by
    rw [signalInt, hnone]
    split_ifs
    · exact Int.zero_bmod
    · rfl
  rw [arrivedReading, hzero, Int.cast_zero, zero_mul, zero_add]

namespace CanParser

def held {R : Type} (p : CanParser R) (name : String) : Option (R × Bool) :=
  (p.values name).map (fun parsed => (parsed.value, parsed.valid))

theorem held_parseFrame (p : CanParser ℚ) {frame : CanFrame} (clockMs : ℕ)
    (h : ¬ frame.dlc > canMaxDlc) (name : String) :
    (p.parseFrame frame clockMs).held name = ((p.inForce frame.id name).map
      (fun signal => (arrivedReading frame signal, true))).or (p.held name) := by
  rw [held, values_parseFrame p clockMs h]
  cases p.inForce frame.id name with
  | none => rfl
  | some signal => exact congrArg (fun x => some (x, true)) (decodeSignal_eq frame signal)

theorem inForce_isSome {R : Type} {p : CanParser R} {canId : UInt32} {signal : CanSignalDef R}
    (hmem : signal ∈ p.signalsByCanId) (hid : signal.canId = canId) :
    ∃ last, p.inForce canId signal.name = some last := by
  rw [← Option.isSome_iff_exists, inForce, lastWhere_isSome]
  exact ⟨signal, List.mem_filter.mpr ⟨hmem, beq_iff_eq.mpr hid⟩, beq_self_eq_true _⟩

theorem held_accepted {p : CanParser ℚ} {frame : CanFrame} (clockMs : ℕ)
    {signal : CanSignalDef ℚ} (hmem : signal ∈ p.signalsByCanId) (hid : signal.canId = frame.id)
    (h : ¬ frame.dlc > canMaxDlc) : ∃ last, p.inForce frame.id signal.name = some last ∧
      (p.parseFrame frame clockMs).held signal.name = some (arrivedReading frame last, true) := by
  obtain ⟨last, hlast⟩ := inForce_isSome hmem hid
  refine ⟨last, hlast, ?_⟩
  rw [held_parseFrame p clockMs h, hlast, Option.map_some, Option.some_or]

/-- An accepted frame makes a signal valid that was not. -/
theorem invalid_keeps_iff {p : CanParser ℚ} {frame : CanFrame} (clockMs : ℕ)
    {signal : CanSignalDef ℚ} (hmem : signal ∈ p.signalsByCanId) (hid : signal.canId = frame.id)
    (hinvalid : ∀ x, p.held signal.name ≠ some (x, true)) :
    (p.parseFrame frame clockMs).held signal.name = p.held signal.name ↔
      frame.dlc > canMaxDlc := by
  constructor
  · intro hkept
    by_contra hdlc
    obtain ⟨last, -, hstored⟩ := held_accepted clockMs hmem hid hdlc
    exact hinvalid _ (hkept.symm.trans hstored)
  · intro hdlc
    rw [parseFrame_rejected p clockMs hdlc]

/-- Frames too short for a signal leave its value alone, whatever the parser holds, exactly if they
    are rejected for their length code, for no other check is made. An accepted one stores, as
    valid, what the bytes left in it read: the offset alone where not even the first arrives. -/
theorem truncated_keeps_iff (p : CanParser ℚ) (frame : CanFrame) (clockMs : ℕ)
    (signal : CanSignalDef ℚ) (hmem : signal ∈ p.signalsByCanId) (hid : signal.canId = frame.id)
    (htrunc : Truncated frame signal) :
    ((∀ q : CanParser ℚ, q.signalsByCanId = p.signalsByCanId →
        (q.parseFrame frame clockMs).held signal.name = q.held signal.name) ↔
      frame.dlc > canMaxDlc) ∧
    ((∀ x, p.held signal.name ≠ some (x, true)) →
      ((p.parseFrame frame clockMs).held signal.name = p.held signal.name ↔
        frame.dlc > canMaxDlc)) ∧
    (¬ frame.dlc > canMaxDlc → ∃ last, p.inForce frame.id signal.name = some last ∧
      (p.parseFrame frame clockMs).held signal.name = some (arrivedReading frame last, true)) ∧
    (frame.dlc ≤ signal.startByte → arrivedReading frame signal = signal.offset) ∧
    (signal.startBit.toNat < 8 → assembled frame signal = if signal.isBigEndian
      then bigEndian (frame.payload.drop signal.startByte.toNat)
      else littleEndian (frame.payload.drop signal.startByte.toNat)) := by
  refine ⟨⟨?_, ?_⟩, invalid_keeps_iff clockMs hmem hid, held_accepted clockMs hmem hid,
    arrivedReading_missing, fun hbit => assembled_truncated hbit htrunc⟩
  · intro hkept
    let fresh : CanParser ℚ := { signalsByCanId := p.signalsByCanId }
    have hinvalid : ∀ x, fresh.held signal.name ≠ some (x, true) := by
      intro x hheld
      cases hheld
    exact (invalid_keeps_iff (p := fresh) clockMs hmem hid hinvalid).mp (hkept fresh rfl)
  · intro hdlc q _
    rw [parseFrame_rejected q clockMs hdlc]

def cutFrame : CanFrame := { id := 0x360, dlc := 1, data := #v[0x0B, 0, 0, 0, 0, 0, 0, 0] }

def holding : CanParser ℚ :=
  (({} : CanParser ℚ).loadSignals (.inOrder [rpmSignal])).parseFrame rpmFrame 0

theorem holding_signals : rpmSignal ∈ holding.signalsByCanId := by
  rw [holding, signalsByCanId_parseFrame]
  exact List.mem_cons_self

theorem cutFrame_truncated : Truncated cutFrame rpmSignal := by
  unfold Truncated
  decide

theorem truncated_keeps_iff_rpm :
    (¬ ∀ q : CanParser ℚ, q.signalsByCanId = holding.signalsByCanId →
      (q.parseFrame cutFrame 1).held "rpm" = q.held "rpm") ∧
    ∃ last, holding.inForce cutFrame.id "rpm" = some last ∧
      (holding.parseFrame cutFrame 1).held "rpm" = some (arrivedReading cutFrame last, true) := by
  have haccepted : ¬ cutFrame.dlc > canMaxDlc := by decide
  have h := truncated_keeps_iff holding cutFrame 1 rpmSignal holding_signals rfl cutFrame_truncated
  exact ⟨fun hkept => haccepted (h.1.mp hkept), h.2.2.1 haccepted⟩

theorem truncated_frame_stored :
    ¬ ∀ (p : CanParser ℚ) (frame : CanFrame) (clockMs : ℕ) (signal : CanSignalDef ℚ),
      signal ∈ p.signalsByCanId → signal.canId = frame.id → Truncated frame signal →
      (p.parseFrame frame clockMs).held signal.name = p.held signal.name := by
  intro hclaim
  have hheld := hclaim holding cutFrame 1 rpmSignal holding_signals rfl cutFrame_truncated
  exact absurd hheld (by decide +kernel)

end CanParser

end SpeeduinoDash
