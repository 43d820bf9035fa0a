import Mathlib.Algebra.Order.Ring.Rat
import SpeeduinoDash.Lib.ByteOrder
import SpeeduinoDash.SignalDecoding

set_option autoImplicit false

/-!
# What the decoder reads

The raw value of a signal is a field of the number that its bytes make up. Of these bytes only
those that arrived count, and only as many as the length alone asks for.
-/
namespace SpeeduinoDash
open Lib.ByteOrder

def CanFrame.payload (frame : CanFrame) : List UInt8 :=
  (List.range frame.dlc.toNat).map frame.byteAt

section Arrived

theorem takeWhile_range (start dlc n : ℕ) :
    (List.range n).takeWhile (fun i => start + i < dlc) = List.range (min n (dlc - start)) := by
  induction n with
  | zero => simp
  | succ n ih =>
    rw [List.range_succ, List.takeWhile_append, ih]
    by_cases hn : n ≤ dlc - start
    · rw [Nat.min_eq_left hn, List.length_range, if_pos rfl]
      by_cases hlast : start + n < dlc
      · rw [Nat.min_eq_left (by omega), List.range_succ]
        simp [hlast]
      · rw [Nat.min_eq_right (by omega), show dlc - start = n by omega]
        simp [hlast]
    · rw [if_neg (by simp; omega), Nat.min_eq_right (by omega), Nat.min_eq_right (by omega)]

theorem filter_range (start dlc n : ℕ) :
    (List.range n).filter (fun i => start + i < dlc) = List.range (min n (dlc - start)) := by
  induction n with
  | zero => simp
  | succ n ih =>
    rw [List.range_succ, List.filter_append, ih]
    by_cases hlast : start + n < dlc
    · rw [Nat.min_eq_left (by omega), Nat.min_eq_left (by omega), List.range_succ]
      simp [hlast]
    · rw [Nat.min_eq_right (by omega), Nat.min_eq_right (by omega)]
      simp [hlast]

/-- The bytes from `start` on that are in the frame, `n` of them at most. -/
def arrived (frame : CanFrame) (start n : ℕ) : List UInt8 := (frame.payload.drop start).take n

theorem arrived_eq (frame : CanFrame) (start n : ℕ) : arrived frame start n =
    (List.range (min n (frame.dlc.toNat - start))).map (fun i => frame.byteAt (start + i)) := by
  apply List.ext_getElem
  · simp [arrived, CanFrame.payload]
  · intro i hi hi'
    simp [arrived, CanFrame.payload]

theorem length_arrived_le (frame : CanFrame) (start n : ℕ) : (arrived frame start n).length ≤ n :=
  List.length_take_le n _

theorem bigEndianBytes_eq (frame : CanFrame) (start n : ℕ) :
    bigEndianBytes frame start n = arrived frame start n := by
  rw [bigEndianBytes, takeWhile_range, arrived_eq]

theorem littleEndianBytes_eq (frame : CanFrame) (start n : ℕ) :
    littleEndianBytes frame start n = (arrived frame start n).reverse := by
  rw [littleEndianBytes, List.filter_reverse, filter_range, arrived_eq, List.map_reverse]

end Arrived

variable {R : Type}

/-- As many as the length needs. The start bit does not count. -/
def CanSignalDef.bytesNeeded (signal : CanSignalDef R) : ℕ := (signal.lengthBits.toNat + 7) / 8

def assembled (frame : CanFrame) (signal : CanSignalDef R) : ℕ :=
  let bytes := arrived frame signal.startByte.toNat signal.bytesNeeded
  if signal.isBigEndian then bigEndian bytes else littleEndian bytes

/-- What the guards let through. A mask of 64 bits comes out empty. -/
def Readable (frame : CanFrame) (signal : CanSignalDef R) : Prop :=
  signal.startByte.toNat < frame.dlc.toNat ∧ 0 < signal.lengthBits.toNat ∧
    signal.lengthBits.toNat < 64 ∧ signal.startBit.toNat < 8 ∧
    signal.startByte.toNat + signal.bytesNeeded ≤ 255

instance (frame : CanFrame) (signal : CanSignalDef R) : Decidable (Readable frame signal) :=
  inferInstanceAs (Decidable (_ ∧ _))

def rawValue (frame : CanFrame) (signal : CanSignalDef R) : ℕ :=
  if Readable frame signal then
    assembled frame signal / 2 ^ signal.startBit.toNat % 2 ^ signal.lengthBits.toNat
  else 0

theorem shiftIn_assembled (frame : CanFrame) (signal : CanSignalDef R)
    (h : signal.bytesNeeded ≤ 8) :
    (shiftIn (if signal.isBigEndian
      then bigEndianBytes frame signal.startByte.toNat signal.bytesNeeded
      else littleEndianBytes frame signal.startByte.toNat signal.bytesNeeded)).toNat =
      assembled frame signal := by
  have hlength := (length_arrived_le frame signal.startByte.toNat signal.bytesNeeded).trans h
  unfold shiftIn assembled
  split_ifs
  · rw [bigEndianBytes_eq, foldl_shiftIn _ hlength]
  · rw [littleEndianBytes_eq, foldl_shiftIn _ (by rwa [List.length_reverse]), bigEndian,
      List.reverse_reverse]

theorem extractRawValue_readable (frame : CanFrame) (signal : CanSignalDef R)
    (h : Readable frame signal) : (extractRawValue frame signal).toNat =
      assembled frame signal / 2 ^ signal.startBit.toNat % 2 ^ signal.lengthBits.toNat := by
  obtain ⟨hstart, hpos, hlong, hbit, hroom⟩ := h
  have hneeded : signal.bytesNeeded ≤ 8 := by
    unfold CanSignalDef.bytesNeeded
    omega
  have hinside : ¬ signal.startByte ≥ frame.dlc := UInt8.not_le.mpr hstart
  have hlength : ¬ (signal.lengthBits = 0 ∨ signal.lengthBits > 64) := by
    rintro (hzero | hmore)
    · rw [hzero] at hpos
      exact absurd hpos (by decide)
    · have hmore' : 64 < signal.lengthBits.toNat := hmore
      omega
  have hfirst : ¬ signal.startBit ≥ 8 := UInt8.not_le.mpr hbit
  have hfits : ¬ (signal.bytesNeeded > 8 ∨ signal.startByte.toNat > 255 - signal.bytesNeeded) := by
    omega
  have hshift : ∀ word : UInt64,
      (if signal.startBit > 0 then word >>> signal.startBit.toUInt64 else word) =
        word >>> signal.startBit.toUInt64 := by
    intro word
    split_ifs with hsome
    · rfl
    · have hnone : signal.startBit = 0 := UInt8.le_zero_iff.mp (UInt8.not_lt.mp hsome)
      rw [hnone]
      exact UInt64.shiftRight_zero.symm
  unfold extractRawValue
  rw [if_neg hinside, if_neg hlength, if_neg hfirst]
  change (if signal.bytesNeeded > 8 ∨ signal.startByte.toNat > 255 - signal.bytesNeeded then 0
    else _ : UInt64).toNat = _
  rw [if_neg hfits]
  dsimp only
  rw [hshift, toNat_shift_mask (by rw [UInt8.toNat_toUInt64]; omega)
    (by rwa [UInt8.toNat_toUInt64]), UInt8.toNat_toUInt64, UInt8.toNat_toUInt64]
  rw [← shiftIn_assembled frame signal hneeded]
  rfl

theorem extractRawValue_unreadable (frame : CanFrame) (signal : CanSignalDef R)
    (h : ¬ Readable frame signal) : extractRawValue frame signal = 0 := by
  unfold extractRawValue
  by_cases hinside : signal.startByte ≥ frame.dlc
  · rw [if_pos hinside]
  rw [if_neg hinside]
  by_cases hlength : signal.lengthBits = 0 ∨ signal.lengthBits > 64
  · rw [if_pos hlength]
  rw [if_neg hlength]
  by_cases hbit : signal.startBit ≥ 8
  · rw [if_pos hbit]
  · rw [if_neg hbit]
    have hpos : signal.lengthBits.toNat ≠ 0 := fun hzero =>
      hlength (.inl (UInt8.toNat_inj.mp hzero))
    have hlong : signal.lengthBits.toNat ≤ 64 := UInt8.not_lt.mp (fun hmore => hlength (.inr hmore))
    have hstart : signal.startByte.toNat < frame.dlc.toNat := UInt8.not_le.mp hinside
    have hfirst : signal.startBit.toNat < 8 := UInt8.not_le.mp hbit
    change (if signal.bytesNeeded > 8 ∨ signal.startByte.toNat > 255 - signal.bytesNeeded then 0
      else _ : UInt64) = 0
    by_cases hfits : signal.bytesNeeded > 8 ∨ signal.startByte.toNat > 255 - signal.bytesNeeded
    · rw [if_pos hfits]
    · have hfull : signal.lengthBits = 64 := by
        apply UInt8.toNat_inj.mp
        change signal.lengthBits.toNat = 64
        by_contra hne
        exact h ⟨hstart, by omega, by omega, hfirst, by omega⟩
      have hmask : ((1 : UInt64) <<< (64 : UInt8).toUInt64) - 1 = 0 := by decide
      rw [if_neg hfits]
      dsimp only
      rw [hfull, hmask, UInt64.and_zero]

theorem toNat_extractRawValue (frame : CanFrame) (signal : CanSignalDef R) :
    (extractRawValue frame signal).toNat = rawValue frame signal := by
  unfold rawValue
  split_ifs with h
  · exact extractRawValue_readable frame signal h
  · rw [extractRawValue_unreadable frame signal h]
    rfl

/-- A signal within one byte is that part of the byte, in either byte order. -/
theorem extractRawValue_byte (frame : CanFrame) (signal : CanSignalDef R)
    (hpos : 0 < signal.lengthBits.toNat) (hlen : signal.lengthBits.toNat ≤ 8)
    (hbit : signal.startBit.toNat < 8) (hbyte : signal.startByte.toNat < 255) :
    (extractRawValue frame signal).toNat = payloadByte frame signal.startByte.toNat /
      2 ^ signal.startBit.toNat % 2 ^ signal.lengthBits.toNat := by
  have hneeded : signal.bytesNeeded = 1 := by
    unfold CanSignalDef.bytesNeeded
    omega
  by_cases hinside : signal.startByte.toNat < frame.dlc.toNat
  · have hreadable : Readable frame signal := ⟨hinside, hpos, by omega, hbit, by omega⟩
    have hone : arrived frame signal.startByte.toNat 1 = [frame.byteAt signal.startByte.toNat] := by
      rw [arrived_eq, Nat.min_eq_left (by omega)]
      rfl
    have hassembled : assembled frame signal = (frame.byteAt signal.startByte.toNat).toNat := by
      rw [assembled, hneeded, hone]
      split_ifs <;> simp [bigEndian]
    rw [extractRawValue_readable frame signal hreadable, hassembled, payloadByte, if_pos hinside]
  · rw [extractRawValue_unreadable frame signal (fun h => hinside h.1), payloadByte,
      if_neg hinside, Nat.zero_div, Nat.zero_mod]
    rfl

theorem rawValue_lt (frame : CanFrame) (signal : CanSignalDef R) :
    rawValue frame signal < 2 ^ signal.lengthBits.toNat := by
  unfold rawValue
  split_ifs
  · exact Nat.mod_lt _ (Nat.two_pow_pos _)
  · exact Nat.two_pow_pos _

def signalInt (frame : CanFrame) (signal : CanSignalDef R) : ℤ :=
  if signal.isSigned then Int.bmod (rawValue frame signal) (2 ^ signal.lengthBits.toNat)
  else rawValue frame signal

theorem signExtend_zero (length : UInt64) : signExtend 0 length = 0 := by
  rw [signExtend, UInt64.zero_and, if_neg (not_not.mpr rfl)]

theorem signExtend_extractRawValue (frame : CanFrame) (signal : CanSignalDef R) :
    (signExtend (extractRawValue frame signal) signal.lengthBits.toUInt64).toInt64.toInt =
      Int.bmod (rawValue frame signal) (2 ^ signal.lengthBits.toNat) := by
  by_cases h : Readable frame signal
  · have hraw := toNat_extractRawValue frame signal
    have hlt := rawValue_lt frame signal
    have hlength := UInt8.toNat_toUInt64 signal.lengthBits
    have hpos : 0 < signal.lengthBits.toUInt64.toNat := by
      rw [hlength]
      exact h.2.1
    have hshort : signal.lengthBits.toUInt64.toNat < 64 := by
      rw [hlength]
      exact h.2.2.1
    have hword : (extractRawValue frame signal).toNat < 2 ^ signal.lengthBits.toUInt64.toNat := by
      rw [hraw, hlength]
      exact hlt
    rw [signExtend_toInt hpos hshort hword, hraw, hlength]
  · rw [extractRawValue_unreadable frame signal h, signExtend_zero, rawValue, if_neg h]
    exact Int.zero_bmod.symm

theorem decodeSignal_eq (frame : CanFrame) (signal : CanSignalDef ℚ) :
    decodeSignal frame signal = (signalInt frame signal : ℚ) * signal.scale + signal.offset := by
  have hvalue : decodeSignal frame signal = (if signal.isSigned then
      ((signExtend (extractRawValue frame signal) signal.lengthBits.toUInt64).toInt64.toInt : ℚ)
      else ((extractRawValue frame signal).toNat : ℚ)) * signal.scale + signal.offset := rfl
  rw [hvalue, signExtend_extractRawValue, toNat_extractRawValue, signalInt]
  split_ifs
  · rfl
  · rw [Int.cast_natCast]

end SpeeduinoDash
