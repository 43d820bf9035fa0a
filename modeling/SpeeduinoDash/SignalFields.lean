import SpeeduinoDash.LastWriter
import SpeeduinoDash.RawValues

set_option autoImplicit false

/-!
# Fields of a frame

Where the decoder reads the field that a definition describes: whole bytes in either byte order
always, bits of the little-endian payload unless the field reaches beyond the bytes its length
asks for.
-/
namespace SpeeduinoDash
open Lib.ByteOrder Lib.Keyed

section Payload

theorem length_payload (frame : CanFrame) : frame.payload.length = frame.dlc.toNat := by
  simp [CanFrame.payload]

theorem payload_lt (frame : CanFrame) (h : frame.dlc.toNat ≤ 8) :
    littleEndian frame.payload < 2 ^ 64 := by
  have hlt := littleEndian_lt frame.payload
  rw [length_payload] at hlt
  have hpow : 256 ^ frame.dlc.toNat ≤ 256 ^ 8 := Nat.pow_le_pow_right (by omega) h
  omega

theorem littleEndian_arrived (frame : CanFrame) (start n : ℕ) :
    littleEndian (arrived frame start n) =
      littleEndian frame.payload / 2 ^ (8 * start) % 2 ^ (8 * n) := by
  rw [arrived, littleEndian_take, littleEndian_drop, Nat.pow_mul, Nat.pow_mul]

end Payload

section BitFields

variable {R : Type}

/-- The bits that the definition names, of the payload read as a little-endian number. -/
def bitField (frame : CanFrame) (signal : CanSignalDef R) : ℕ :=
  littleEndian frame.payload / 2 ^ (8 * signal.startByte.toNat + signal.startBit.toNat) %
    2 ^ signal.lengthBits.toNat

/-- A little-endian signal that the guards accept and that lies within a frame of `dlc` bytes. -/
structure LiesWithin (signal : CanSignalDef R) (dlc : ℕ) : Prop where
  order : signal.isBigEndian = false
  startBit : signal.startBit.toNat < 8
  positive : 0 < signal.lengthBits.toNat
  length : signal.lengthBits.toNat ≤ 64
  classic : dlc ≤ 8
  inside : 8 * signal.startByte.toNat + signal.startBit.toNat + signal.lengthBits.toNat ≤ 8 * dlc

/-- The bits of the field behind the bytes that are read are clear, all of them where the mask
    comes out empty. -/
def LostBitsClear (frame : CanFrame) (signal : CanSignalDef R) : Prop :=
  if signal.lengthBits.toNat = 64 then littleEndian frame.payload = 0
  else littleEndian frame.payload / 2 ^ (8 * (signal.startByte.toNat + signal.bytesNeeded)) %
    2 ^ (signal.startBit.toNat + signal.lengthBits.toNat - 8 * signal.bytesNeeded) = 0

theorem extractRawValue_bitField_iff {frame : CanFrame} {signal : CanSignalDef R}
    (h : LiesWithin signal frame.dlc.toNat) :
    (extractRawValue frame signal).toNat = bitField frame signal ↔ LostBitsClear frame signal := by
  obtain ⟨horder, hbit, hpos, hlength, hclassic, hinside⟩ := h
  rw [toNat_extractRawValue, rawValue, LostBitsClear]
  by_cases hfull : signal.lengthBits.toNat = 64
  · have hnot : ¬ Readable frame signal := fun hreadable => absurd hreadable.2.2.1 (by omega)
    have hstart : 8 * signal.startByte.toNat + signal.startBit.toNat = 0 := by omega
    have hall := payload_lt frame hclassic
    rw [if_neg hnot, if_pos hfull, bitField, hstart, hfull, Nat.pow_zero, Nat.div_one,
      Nat.mod_eq_of_lt hall]
    exact eq_comm
  · have hreadable : Readable frame signal := by
      refine ⟨by omega, hpos, by omega, hbit, ?_⟩
      unfold CanSignalDef.bytesNeeded
      omega
    have hfetched : signal.startBit.toNat ≤ 8 * signal.bytesNeeded := by
      unfold CanSignalDef.bytesNeeded
      omega
    have hassembled : assembled frame signal = littleEndian frame.payload /
        2 ^ (8 * signal.startByte.toNat) % 2 ^ (8 * signal.bytesNeeded) := by
      rw [assembled, horder]
      exact littleEndian_arrived frame _ _
    have hfield := fetched_field signal.lengthBits.toNat
      (littleEndian frame.payload / 2 ^ (8 * signal.startByte.toNat)) hfetched
    rw [Nat.div_div_eq_div_mul, Nat.div_div_eq_div_mul, ← Nat.pow_add, ← Nat.pow_add,
      ← Nat.mul_add] at hfield
    rw [if_pos hreadable, if_neg hfull, hassembled]
    exact hfield

theorem payload_ones (dlc : UInt8) (h : dlc.toNat ≤ 8) :
    littleEndian ({ dlc := dlc, data := Vector.replicate 8 255 } : CanFrame).payload =
      2 ^ (8 * dlc.toNat) - 1 := by
  have hones : ({ dlc := dlc, data := Vector.replicate 8 255 } : CanFrame).payload =
      List.replicate dlc.toNat 255 := by
    apply List.ext_getElem
    · simp [CanFrame.payload]
    · intro i hi hi'
      have hi8 : i < 8 := by
        rw [List.length_replicate] at hi'
        omega
      simp [CanFrame.payload, CanFrame.byteAt, hi8]
  rw [hones, littleEndian_ones, Nat.pow_mul]

/-- The raw value is the field exactly if no set bit of it lies behind the bytes that are read.
    So a definition is exact for all payloads exactly if its field ends within them and is not 64
    bits long. -/
theorem bitField_exact_iff (signal : CanSignalDef R) (dlc : UInt8)
    (h : LiesWithin signal dlc.toNat) :
    (∀ frame : CanFrame, frame.dlc = dlc →
      ((extractRawValue frame signal).toNat = bitField frame signal ↔
        LostBitsClear frame signal)) ∧
    ((∀ frame : CanFrame, frame.dlc = dlc →
      (extractRawValue frame signal).toNat = bitField frame signal) ↔
        signal.startBit.toNat + signal.lengthBits.toNat ≤ 8 * signal.bytesNeeded ∧
          signal.lengthBits.toNat < 64) := by
  have hiff : ∀ frame : CanFrame, frame.dlc = dlc →
      ((extractRawValue frame signal).toNat = bitField frame signal ↔
        LostBitsClear frame signal) := by
    rintro frame rfl
    exact extractRawValue_bitField_iff h
  obtain ⟨horder, hbit, hpos, hlength, hclassic, hinside⟩ := h
  refine ⟨hiff, ?_⟩
  constructor
  · intro hexact
    have hclear := (hiff { dlc := dlc, data := Vector.replicate 8 255 } rfl).mp (hexact _ rfl)
    rw [LostBitsClear, payload_ones dlc hclassic] at hclear
    split_ifs at hclear with hfull
    · have hdlc : dlc.toNat = 8 := by omega
      rw [hdlc] at hclear
      omega
    · refine ⟨?_, by omega⟩
      by_contra hlong
      exact ones_field (by omega) (by omega) hclear
  · rintro ⟨hends, hshort⟩ frame hdlc
    rw [hiff frame hdlc, LostBitsClear, if_neg (by omega), Nat.sub_eq_zero_of_le hends]
    exact Nat.mod_one _

end BitFields

def straddling : CanSignalDef ℚ :=
  { name := "straddling", startBit := 4, lengthBits := 8, scale := 1, offset := 0 }

def onesFrame : CanFrame := { dlc := 8, data := Vector.replicate 8 255 }

theorem straddling_within : LiesWithin straddling 8 := by
  constructor <;> decide

theorem bitField_exact_iff_straddling :
    ((extractRawValue onesFrame straddling).toNat = bitField onesFrame straddling ↔
      LostBitsClear onesFrame straddling) :=
  (bitField_exact_iff straddling 8 straddling_within).1 onesFrame rfl

theorem straddling_field_cut :
    ¬ ∀ (signal : CanSignalDef ℚ) (frame : CanFrame), LiesWithin signal frame.dlc.toNat →
      (extractRawValue frame signal).toNat = bitField frame signal := by
  intro hclaim
  exact absurd (hclaim straddling onesFrame straddling_within) (by decide)

section WholeBytes

variable {R : Type}

def CanSignalDef.Represents (signal : CanSignalDef R) (v : ℤ) : Prop :=
  if signal.isSigned then
    -2 ^ (signal.lengthBits.toNat - 1) ≤ v ∧ v < 2 ^ (signal.lengthBits.toNat - 1)
  else 0 ≤ v ∧ v < 2 ^ signal.lengthBits.toNat

def CanSignalDef.encode (signal : CanSignalDef R) (v : ℤ) : List UInt8 :=
  let bytes := toLittleEndian signal.bytesNeeded (v % 2 ^ signal.lengthBits.toNat).toNat
  if signal.isBigEndian then bytes.reverse else bytes

def writeBytes (data : Vector UInt8 8) (start : ℕ) (bytes : List UInt8) : Vector UInt8 8 :=
  Vector.ofFn (fun i => if start ≤ i.val then bytes[i.val - start]?.getD data[i] else data[i])

theorem arrived_writeBytes (frame : CanFrame) {start : ℕ} {bytes : List UInt8}
    (hinside : start + bytes.length ≤ frame.dlc.toNat) (hclassic : frame.dlc.toNat ≤ 8) :
    arrived { frame with data := writeBytes frame.data start bytes } start bytes.length = bytes := by
  rw [arrived_eq]
  apply List.ext_getElem
  · simp
    omega
  · intro i hi hi'
    have hi8 : start + i < 8 := by omega
    simp [CanFrame.byteAt, writeBytes, hi8, hi']

theorem littleEndian_two_complement (n : ℕ) (v : ℤ) :
    (littleEndian (toLittleEndian n (v % 2 ^ (8 * n)).toNat) : ℤ) = v % 2 ^ (8 * n) := by
  have hpow : (0 : ℤ) < 2 ^ (8 * n) := by positivity
  have hnonneg := Int.emod_nonneg v hpow.ne'
  have hlt : (v % 2 ^ (8 * n)).toNat < 256 ^ n := by
    have := Int.emod_lt_of_pos v hpow
    have hbase : (256 : ℕ) ^ n = 2 ^ (8 * n) := by rw [Nat.pow_mul]
    rw [hbase]
    zify
    rwa [Int.toNat_of_nonneg hnonneg]
  rw [littleEndian_toLittleEndian, Nat.mod_eq_of_lt hlt, Int.toNat_of_nonneg hnonneg]

theorem CanSignalDef.length_encode (signal : CanSignalDef R) (v : ℤ) :
    (signal.encode v).length = signal.bytesNeeded := by
  unfold CanSignalDef.encode
  dsimp only
  split_ifs <;> simp

/-- A signal of one to seven whole bytes within a frame of `dlc` bytes. -/
structure WholeBytes (signal : CanSignalDef R) (dlc : ℕ) : Prop where
  startBit : signal.startBit = 0
  whole : signal.lengthBits.toNat % 8 = 0
  positive : 8 ≤ signal.lengthBits.toNat
  length : signal.lengthBits.toNat ≤ 56
  classic : dlc ≤ 8
  inside : 8 * signal.startByte.toNat + signal.lengthBits.toNat ≤ 8 * dlc

def CanFrame.write (frame : CanFrame) (signal : CanSignalDef R) (v : ℤ) : CanFrame :=
  { frame with data := writeBytes frame.data signal.startByte.toNat (signal.encode v) }

theorem assembled_write {frame : CanFrame} {signal : CanSignalDef R}
    (h : WholeBytes signal frame.dlc.toNat) (v : ℤ) :
    (assembled (frame.write signal v) signal : ℤ) = v % 2 ^ signal.lengthBits.toNat := by
  obtain ⟨-, hwhole, hpos, hlength, hclassic, hinside⟩ := h
  have hbits : signal.lengthBits.toNat = 8 * signal.bytesNeeded := by
    unfold CanSignalDef.bytesNeeded
    omega
  have hroom : signal.startByte.toNat + (signal.encode v).length ≤ frame.dlc.toNat := by
    rw [signal.length_encode]
    omega
  have hbytes := arrived_writeBytes frame hroom hclassic
  rw [signal.length_encode] at hbytes
  have hvalue := littleEndian_two_complement signal.bytesNeeded v
  rw [← hbits] at hvalue
  unfold assembled CanFrame.write
  dsimp only
  rw [hbytes, CanSignalDef.encode]
  split_ifs
  · rw [bigEndian, List.reverse_reverse, hvalue]
  · exact hvalue

theorem signalInt_write {frame : CanFrame} {signal : CanSignalDef R}
    (h : WholeBytes signal frame.dlc.toNat) {v : ℤ} (hv : signal.Represents v) :
    signalInt (frame.write signal v) signal = v := by
  have hreadable : Readable (frame.write signal v) signal := by
    obtain ⟨hbit, -, hpos, hlength, hclassic, hinside⟩ := h
    refine ⟨?_, by omega, by omega, by rw [hbit]; decide, ?_⟩
    · change signal.startByte.toNat < frame.dlc.toNat
      omega
    · unfold CanSignalDef.bytesNeeded
      omega
  have hpow : (2 : ℤ) ^ signal.lengthBits.toNat = 2 * 2 ^ (signal.lengthBits.toNat - 1) := by
    rw [← pow_succ']
    congr 1
    have := h.positive
    omega
  have hmodulus : (0 : ℤ) < 2 ^ signal.lengthBits.toNat := by positivity
  have hraw : (rawValue (frame.write signal v) signal : ℤ) = v % 2 ^ signal.lengthBits.toNat := by
    have hzero : (0 : UInt8).toNat = 0 := rfl
    rw [rawValue, if_pos hreadable, h.startBit, hzero, Nat.pow_zero, Nat.div_one]
    push_cast
    rw [assembled_write h, Int.emod_emod_of_dvd _ dvd_rfl]
  unfold CanSignalDef.Represents at hv
  rw [signalInt, hraw]
  split_ifs at hv ⊢ with hsigned
  · have hmod : v % 2 ^ signal.lengthBits.toNat =
        v % ((2 ^ signal.lengthBits.toNat : ℕ) : ℤ) := by push_cast; rfl
    rw [hmod, Int.emod_bmod]
    apply Int.bmod_eq_of_le_mul_two
    · push_cast
      omega
    · push_cast
      omega
  · exact Int.emod_eq_of_lt hv.1 hv.2

/-- A value written into a frame in the byte order of the signal is read back, whatever the rest of
    the payload is. -/
theorem parseFrame_write (p : CanParser ℚ) (frame : CanFrame) (signal : CanSignalDef ℚ)
    (clockMs : ℕ) (v : ℤ) (hin : p.inForce frame.id signal.name = some signal)
    (h : WholeBytes signal frame.dlc.toNat) (hv : signal.Represents v) :
    (p.parseFrame (frame.write signal v) clockMs).getSignalValue signal.name =
      some (v * signal.scale + signal.offset) := by
  have haccepted : ¬ (frame.write signal v).dlc > canMaxDlc := by
    intro hlong
    have hlong' : 64 < frame.dlc.toNat := hlong
    have := h.classic
    omega
  have hreading : CanParser.reading p.signalsByCanId signal.name (frame.write signal v) =
      some (v * signal.scale + signal.offset) := by
    change (p.inForce frame.id signal.name).map _ = _
    rw [hin, Option.map_some, decodeSignal_eq, signalInt_write h hv]
  rw [CanParser.getSignalValue_parseFrame p clockMs haccepted, hreading, Option.some_or]

def lambdaTrim : CanSignalDef ℚ where
  name := "lambda_trim"
  canId := 0x362
  startByte := 2
  lengthBits := 16
  isBigEndian := true
  isSigned := true
  scale := 1 / 10
  offset := 5

theorem parseFrame_write_negative :
    let signal := lambdaTrim
    let p := ({} : CanParser ℚ).loadSignals (.inOrder [signal])
    let frame : CanFrame := { id := 0x362, dlc := 6, data := #v[1, 2, 3, 4, 5, 6, 7, 8] }
    (p.parseFrame (frame.write signal (-300)) 0).getSignalValue "lambda_trim" = some (-25) := by
  intro signal p frame
  have hwhole : WholeBytes signal frame.dlc.toNat := by
    constructor <;> decide
  have hv : signal.Represents (-300) := by
    unfold CanSignalDef.Represents
    decide
  refine (parseFrame_write p frame signal 0 (-300) ?_ hwhole hv).trans ?_
  · simp [CanParser.inForce, p, CanParser.loadSignals, SignalTable.inOrder, lastWhere, signal,
      lambdaTrim, frame]
  · norm_num [signal, lambdaTrim]

end WholeBytes

end SpeeduinoDash
