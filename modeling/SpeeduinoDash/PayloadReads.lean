import SpeeduinoDash.CanParser
import SpeeduinoDash.Lib.ArrayReads
import SpeeduinoDash.RawValues

set_option autoImplicit false

/-!
# Where the decoder reads the data of a frame

The loops of the decoder stop at the length code of the frame, which the parser accepts up to 64.
The data are eight bytes.
-/
namespace SpeeduinoDash
open Lib.ArrayReads

variable {R : Type}

def byteIndices (dlc : UInt8) (signal : CanSignalDef R) (bytesNeeded : ℕ) : List ℕ :=
  let inFrame (i : ℕ) : Bool := signal.startByte.toNat + i < dlc.toNat
  (if signal.isBigEndian then (List.range bytesNeeded).takeWhile inFrame
    else (List.range bytesNeeded).reverse.filter inFrame).map (signal.startByte.toNat + ·)

def extraction (dlc : UInt8) (signal : CanSignalDef R) : Reading UInt8 UInt64 :=
  if signal.startByte ≥ dlc then pure 0
  else if signal.lengthBits = 0 ∨ signal.lengthBits > 64 then pure 0
  else if signal.startBit ≥ 8 then pure 0
  else
    let bytesNeeded := (signal.lengthBits.toNat + 7) / 8
    if bytesNeeded > 8 ∨ signal.startByte.toNat > 255 - bytesNeeded then pure 0
    else do
      let bytes ← Reading.fetchAll (byteIndices dlc signal bytesNeeded)
      let result := shiftIn bytes
      let shifted := if signal.startBit > 0 then result >>> signal.startBit.toUInt64 else result
      let mask := ((1 : UInt64) <<< signal.lengthBits.toUInt64) - 1
      pure (shifted &&& mask)

theorem eval_extraction (frame : CanFrame) (signal : CanSignalDef R) :
    (extraction frame.dlc signal).eval frame.byteAt = extractRawValue frame signal := by
  have hbytes : ∀ n, (byteIndices frame.dlc signal n).map frame.byteAt =
      if signal.isBigEndian then bigEndianBytes frame signal.startByte.toNat n
      else littleEndianBytes frame signal.startByte.toNat n := by
    intro n
    unfold byteIndices bigEndianBytes littleEndianBytes
    cases signal.isBigEndian <;> simp
  unfold extraction extractRawValue
  by_cases hstarts : signal.startByte ≥ frame.dlc
  · rw [if_pos hstarts, if_pos hstarts, Reading.eval_pure]
  rw [if_neg hstarts, if_neg hstarts]
  by_cases hlength : signal.lengthBits = 0 ∨ signal.lengthBits > 64
  · rw [if_pos hlength, if_pos hlength, Reading.eval_pure]
  rw [if_neg hlength, if_neg hlength]
  by_cases hbit : signal.startBit ≥ 8
  · rw [if_pos hbit, if_pos hbit, Reading.eval_pure]
  rw [if_neg hbit, if_neg hbit]
  dsimp only
  by_cases hroom : (signal.lengthBits.toNat + 7) / 8 > 8 ∨
      signal.startByte.toNat > 255 - (signal.lengthBits.toNat + 7) / 8
  · rw [if_pos hroom, if_pos hroom, Reading.eval_pure]
  rw [if_neg hroom, if_neg hroom, Reading.eval_bind, Reading.eval_fetchAll, hbytes]
  rfl

structure Fetched (dlc : UInt8) (signal : CanSignalDef R) : Prop where
  starts : signal.startByte < dlc
  length : signal.lengthBits ≠ 0 ∧ signal.lengthBits ≤ 64
  startBit : signal.startBit < 8
  room : signal.startByte.toNat + signal.bytesNeeded ≤ 255

theorem indices_extraction_of_fetched {dlc : UInt8} {signal : CanSignalDef R}
    (h : Fetched dlc signal) (array : ℕ → UInt8) :
    (extraction dlc signal).indices array = byteIndices dlc signal signal.bytesNeeded := by
  obtain ⟨hstarts, ⟨hsome, hlength⟩, hbit, hroom⟩ := h
  have hneeded : signal.bytesNeeded ≤ 8 := by
    have hle : signal.lengthBits.toNat ≤ 64 := hlength
    unfold CanSignalDef.bytesNeeded
    omega
  have hfits : ¬ ((signal.lengthBits.toNat + 7) / 8 > 8 ∨
      signal.startByte.toNat > 255 - (signal.lengthBits.toNat + 7) / 8) := by
    unfold CanSignalDef.bytesNeeded at hneeded hroom
    omega
  unfold extraction
  rw [if_neg (UInt8.not_le.mpr hstarts), if_neg (not_or.mpr ⟨hsome, UInt8.not_lt.mpr hlength⟩),
    if_neg (UInt8.not_le.mpr hbit)]
  dsimp only
  rw [if_neg hfits, Reading.indices_bind, Reading.indices_fetchAll, Reading.indices_pure,
    List.append_nil]
  rfl

theorem indices_extraction_of_not_fetched {dlc : UInt8} {signal : CanSignalDef R}
    (h : ¬ Fetched dlc signal) (array : ℕ → UInt8) : (extraction dlc signal).indices array = [] := by
  unfold extraction
  by_cases hstarts : signal.startByte ≥ dlc
  · rw [if_pos hstarts, Reading.indices_pure]
  rw [if_neg hstarts]
  by_cases hlength : signal.lengthBits = 0 ∨ signal.lengthBits > 64
  · rw [if_pos hlength, Reading.indices_pure]
  rw [if_neg hlength]
  by_cases hbit : signal.startBit ≥ 8
  · rw [if_pos hbit, Reading.indices_pure]
  rw [if_neg hbit]
  dsimp only
  rw [if_pos, Reading.indices_pure]
  by_contra hroom
  refine h ⟨UInt8.not_le.mp hstarts, ?_, UInt8.not_le.mp hbit, ?_⟩
  · rw [not_or] at hlength
    exact ⟨hlength.1, UInt8.not_lt.mp hlength.2⟩
  · unfold CanSignalDef.bytesNeeded
    omega

theorem mem_byteIndices {dlc : UInt8} {signal : CanSignalDef R} {n i : ℕ} :
    i ∈ byteIndices dlc signal n ↔
      signal.startByte.toNat ≤ i ∧ i < signal.startByte.toNat + n ∧ i < dlc.toNat := by
  have hindices : ∀ j, j ∈ (if signal.isBigEndian
      then (List.range n).takeWhile (fun i => signal.startByte.toNat + i < dlc.toNat)
      else (List.range n).reverse.filter (fun i => signal.startByte.toNat + i < dlc.toNat)) ↔
        j < n ∧ signal.startByte.toNat + j < dlc.toNat := by
    intro j
    rw [takeWhile_range, List.filter_reverse, filter_range]
    cases signal.isBigEndian <;> simp <;> omega
  unfold byteIndices
  simp only [List.mem_map, hindices]
  constructor
  · rintro ⟨j, ⟨hj, hin⟩, rfl⟩
    omega
  · intro hi
    exact ⟨i - signal.startByte.toNat, by omega, by omega⟩

theorem extraction_inBounds_iff (frame : CanFrame) (signal : CanSignalDef R) :
    (extraction frame.dlc signal).InBounds frame.byteAt 8 ↔
      frame.dlc ≤ 8 ∨ ¬ Fetched frame.dlc signal ∨
        signal.startByte.toNat + signal.bytesNeeded ≤ 8 := by
  unfold Reading.InBounds
  rw [UInt8.le_iff_toNat_le, show (8 : UInt8).toNat = 8 from rfl]
  by_cases h : Fetched frame.dlc signal
  · rw [indices_extraction_of_fetched h]
    simp only [mem_byteIndices, not_true_eq_false, false_or, h]
    have hstarts : signal.startByte.toNat < frame.dlc.toNat := h.starts
    have hpos : 0 < signal.bytesNeeded := by
      have hsome : signal.lengthBits.toNat ≠ 0 := fun hzero => h.length.1 (UInt8.toNat_inj.mp hzero)
      unfold CanSignalDef.bytesNeeded
      omega
    constructor
    · intro hbounds
      by_contra hlong
      have := hbounds (min (signal.startByte.toNat + signal.bytesNeeded) frame.dlc.toNat - 1)
        (by omega)
      omega
    · rintro hshort i hi
      omega
  · rw [indices_extraction_of_not_fetched h]
    simp [h]

namespace CanParser

/-- The indices into the data that a call of `parseFrame` uses. -/
def payloadIndices (p : CanParser R) (frame : CanFrame) : List ℕ :=
  if frame.dlc > canMaxDlc then []
  else (p.equalRange frame.id).flatMap
    (fun signal => (extraction frame.dlc signal).indices frame.byteAt)

/-- The parser keeps to the eight bytes exactly if the length code is at most 8, or too large to be
    accepted, or no signal that is decoded goes beyond the eighth byte. -/
theorem payload_in_bounds_iff (p : CanParser R) (frame : CanFrame) :
    (∀ i ∈ p.payloadIndices frame, i < 8) ↔
      frame.dlc ≤ 8 ∨ frame.dlc > canMaxDlc ∨ ∀ signal ∈ p.equalRange frame.id,
        Fetched frame.dlc signal → signal.startByte.toNat + signal.bytesNeeded ≤ 8 := by
  unfold payloadIndices
  split_ifs with hdlc
  · simp [hdlc]
  · have heach : (∀ i ∈ (p.equalRange frame.id).flatMap
        (fun signal => (extraction frame.dlc signal).indices frame.byteAt), i < 8) ↔
        ∀ signal ∈ p.equalRange frame.id, (extraction frame.dlc signal).InBounds frame.byteAt 8 := by
      simp only [List.mem_flatMap]
      constructor
      · intro h signal hsignal i hi
        exact h i ⟨signal, hsignal, hi⟩
      · rintro h i ⟨signal, hsignal, hi⟩
        exact h signal hsignal i hi
    rw [heach]
    simp only [extraction_inBounds_iff, hdlc, false_or]
    constructor
    · intro h
      by_cases hshort : frame.dlc ≤ 8
      · exact .inl hshort
      · refine .inr (fun signal hsignal hfetched => ?_)
        exact ((h signal hsignal).resolve_left hshort).resolve_left (not_not.mpr hfetched)
    · rintro (hshort | hends) signal hsignal
      · exact .inl hshort
      · by_cases hfetched : Fetched frame.dlc signal
        · exact .inr (.inr (hends signal hsignal hfetched))
        · exact .inr (.inl hfetched)

/-- A signal in the ninth byte, as CAN FD frames have one. -/
def ninthByte : CanSignalDef ℚ where
  name := "boost_target"
  canId := 0x370
  startByte := 8
  startBit := 0
  lengthBits := 8
  isBigEndian := true
  isSigned := false
  scale := 1
  offset := 0
  unit := ""

theorem ninth_byte_read :
    ¬ ∀ (p : CanParser ℚ) (frame : CanFrame), ∀ i ∈ p.payloadIndices frame, i < 8 := by
  intro hclaim
  have hninth := hclaim (({} : CanParser ℚ).loadSignals (.inOrder [ninthByte]))
    { id := 0x370, dlc := 64 } 8 (by decide)
  exact absurd hninth (by decide)

end CanParser

end SpeeduinoDash
