import Mathlib.Data.Int.Notation
import Mathlib.Data.List.Induction
import Mathlib.Data.Nat.Bitwise
import Mathlib.Data.Nat.Digits.Defs
import Mathlib.Tactic.SplitIfs

set_option autoImplicit false

/-!
# Numbers in bytes and fields of bits

A list of bytes read in either byte order, the 64-bit accumulator that shifts bytes in, the
fields cut out of a number, the two's complement reading of a field, and words with flag bits.
-/
namespace Lib.ByteOrder

def littleEndian (bytes : List UInt8) : ℕ := Nat.ofDigits 256 (bytes.map UInt8.toNat)

def bigEndian (bytes : List UInt8) : ℕ := littleEndian bytes.reverse

theorem toNat_lt_of_mem (bytes : List UInt8) : ∀ digit ∈ bytes.map UInt8.toNat, digit < 256 := by
  intro digit hdigit
  obtain ⟨byte, -, rfl⟩ := List.mem_map.mp hdigit
  exact byte.toNat_lt

@[simp] theorem littleEndian_nil : littleEndian [] = 0 := rfl

@[simp] theorem littleEndian_cons (byte : UInt8) (bytes : List UInt8) :
    littleEndian (byte :: bytes) = byte.toNat + 256 * littleEndian bytes :=
  Nat.ofDigits_cons

theorem littleEndian_append (xs ys : List UInt8) :
    littleEndian (xs ++ ys) = littleEndian xs + 256 ^ xs.length * littleEndian ys := by
  simp [littleEndian, Nat.ofDigits_append]

theorem littleEndian_lt (bytes : List UInt8) : littleEndian bytes < 256 ^ bytes.length := by
  have h := Nat.ofDigits_lt_base_pow_length (b := 256) (by omega) (toNat_lt_of_mem bytes)
  simpa [littleEndian] using h

theorem littleEndian_drop (bytes : List UInt8) (n : ℕ) :
    littleEndian (bytes.drop n) = littleEndian bytes / 256 ^ n := by
  rw [littleEndian, List.map_drop]
  exact (Nat.ofDigits_div_pow_eq_ofDigits_drop n (by omega) _ (toNat_lt_of_mem _)).symm

theorem littleEndian_take (bytes : List UInt8) (n : ℕ) :
    littleEndian (bytes.take n) = littleEndian bytes % 256 ^ n := by
  by_cases hn : n ≤ bytes.length
  · have hlt := littleEndian_lt (bytes.take n)
    have hsplit := littleEndian_append (bytes.take n) (bytes.drop n)
    rw [List.length_take_of_le hn] at hlt hsplit
    rw [List.take_append_drop] at hsplit
    rw [hsplit, Nat.add_mul_mod_self_left, Nat.mod_eq_of_lt hlt]
  · have hall : bytes.length ≤ n := by omega
    have hpow : 256 ^ bytes.length ≤ 256 ^ n := Nat.pow_le_pow_right (by omega) hall
    rw [List.take_of_length_le hall, Nat.mod_eq_of_lt ((littleEndian_lt bytes).trans_le hpow)]

theorem bigEndian_snoc (bytes : List UInt8) (byte : UInt8) :
    bigEndian (bytes ++ [byte]) = bigEndian bytes * 256 + byte.toNat := by
  rw [bigEndian, bigEndian, List.reverse_append, List.reverse_singleton, List.singleton_append,
    littleEndian_cons]
  omega

theorem bigEndian_lt (bytes : List UInt8) : bigEndian bytes < 256 ^ bytes.length := by
  have h := littleEndian_lt bytes.reverse
  rwa [List.length_reverse] at h

theorem littleEndian_ones (n : ℕ) : littleEndian (List.replicate n 255) = 256 ^ n - 1 := by
  induction n with
  | zero => rfl
  | succ n ih =>
    have hpos : 0 < 256 ^ n := Nat.pow_pos (by omega)
    have hbyte : (255 : UInt8).toNat = 255 := rfl
    rw [List.replicate_succ, littleEndian_cons, ih, Nat.pow_succ, hbyte]
    omega

section Fields

/-- What is left of a field when only the low `fetched` bits are read. -/
theorem fetched_field {start fetched : ℕ} (length n : ℕ) (h : start ≤ fetched) :
    n % 2 ^ fetched / 2 ^ start % 2 ^ length = n / 2 ^ start % 2 ^ length ↔
      n / 2 ^ fetched % 2 ^ (start + length - fetched) = 0 := by
  obtain ⟨kept, rfl⟩ := Nat.exists_eq_add_of_le h
  have hlow : n % 2 ^ (start + kept) / 2 ^ start = n / 2 ^ start % 2 ^ kept := by
    rw [Nat.pow_add, Nat.mod_mul_right_div_self]
  have hhigh : n / 2 ^ (start + kept) = n / 2 ^ start / 2 ^ kept := by
    rw [Nat.pow_add, Nat.div_div_eq_div_mul]
  rw [hlow, hhigh, Nat.add_sub_add_left]
  by_cases hlength : length ≤ kept
  · have hdvd : 2 ^ length ∣ 2 ^ kept := Nat.pow_dvd_pow 2 hlength
    simp [Nat.mod_mod_of_dvd _ hdvd, Nat.sub_eq_zero_of_le hlength, Nat.mod_one]
  · obtain ⟨lost, rfl⟩ := Nat.exists_eq_add_of_le (Nat.le_of_not_le hlength)
    have hsplit : n / 2 ^ start % 2 ^ (kept + lost) = n / 2 ^ start % 2 ^ kept +
        2 ^ kept * (n / 2 ^ start / 2 ^ kept % 2 ^ lost) := by
      rw [Nat.pow_add, Nat.mod_mul]
    have hpos := Nat.two_pow_pos kept
    have hsmall : n / 2 ^ start % 2 ^ kept < 2 ^ (kept + lost) := by
      have := Nat.mod_lt (n / 2 ^ start) hpos
      exact this.trans_le (Nat.pow_le_pow_right (by omega) (by omega))
    rw [Nat.mod_eq_of_lt hsmall, hsplit, Nat.add_sub_cancel_left]
    constructor
    · intro heq
      have hzero : 2 ^ kept * (n / 2 ^ start / 2 ^ kept % 2 ^ lost) = 0 := by omega
      exact (Nat.mul_eq_zero.mp hzero).resolve_left (by omega)
    · intro hzero
      rw [hzero, Nat.mul_zero, Nat.add_zero]

theorem ones_field {start length width : ℕ} (hlength : 0 < length) (h : start + length ≤ width) :
    (2 ^ width - 1) / 2 ^ start % 2 ^ length ≠ 0 := by
  obtain ⟨rest, rfl⟩ := Nat.exists_eq_add_of_le (show start + 1 ≤ width by omega)
  have hpos := Nat.two_pow_pos start
  have hsplit : 2 ^ (start + 1 + rest) - 1 = (2 ^ start - 1) + 2 ^ start * (2 ^ (1 + rest) - 1) := by
    have hle : 1 ≤ 2 ^ (1 + rest) := Nat.two_pow_pos _
    have hscaled := Nat.mul_le_mul_left (2 ^ start) hle
    rw [Nat.add_assoc, Nat.pow_add 2 start (1 + rest), Nat.mul_sub_one]
    omega
  have hquot : (2 ^ (start + 1 + rest) - 1) / 2 ^ start = 2 ^ (1 + rest) - 1 := by
    rw [hsplit, Nat.add_mul_div_left _ _ hpos, Nat.div_eq_of_lt (by omega), Nat.zero_add]
  intro hzero
  have heven : (2 ^ (1 + rest) - 1) % 2 = 0 := by
    rw [hquot] at hzero
    have hdvd : 2 ∣ 2 ^ length := dvd_pow_self 2 (by omega)
    rw [← Nat.mod_mod_of_dvd _ hdvd, hzero]
  have hdouble : 2 ^ (1 + rest) = 2 * 2 ^ rest := Nat.pow_add 2 1 rest
  have hrest := Nat.two_pow_pos rest
  generalize 2 ^ rest = half at hdouble hrest
  omega

end Fields

section Encode

def toLittleEndian (n value : ℕ) : List UInt8 :=
  (List.range n).map (fun i => UInt8.ofNat (value / 256 ^ i))

@[simp] theorem length_toLittleEndian (n value : ℕ) : (toLittleEndian n value).length = n := by
  simp [toLittleEndian]

theorem littleEndian_toLittleEndian (n value : ℕ) :
    littleEndian (toLittleEndian n value) = value % 256 ^ n := by
  induction n with
  | zero => simp [toLittleEndian, Nat.mod_one]
  | succ n ih =>
    have hsnoc : toLittleEndian (n + 1) value =
        toLittleEndian n value ++ [UInt8.ofNat (value / 256 ^ n)] := by
      simp [toLittleEndian, List.range_succ]
    rw [hsnoc, littleEndian_append, ih, length_toLittleEndian, Nat.mod_pow_succ]
    simp

end Encode

section Words

theorem toNat_shiftIn (word : UInt64) (byte : UInt8) :
    ((word <<< 8) ||| byte.toUInt64).toNat = (word.toNat * 256 + byte.toNat) % 2 ^ 64 := by
  have hbyte : byte.toNat < 2 ^ 8 := byte.toNat_lt
  have hshift : (word <<< 8).toNat = word.toNat <<< 8 % 2 ^ 64 := UInt64.toNat_shiftLeft word 8
  have hor : word.toNat <<< 8 ||| byte.toNat = word.toNat * 256 + byte.toNat :=
    (Nat.shiftLeft_add_eq_or_of_lt hbyte word.toNat).symm.trans
      (by rw [Nat.shiftLeft_eq])
  have hmod : byte.toNat % 2 ^ 64 = byte.toNat := Nat.mod_eq_of_lt (by omega)
  rw [UInt64.toNat_or, hshift, UInt8.toNat_toUInt64, ← hor, Nat.or_mod_two_pow, hmod]

/-- Eight bytes fit: nothing is shifted out. -/
theorem foldl_shiftIn (bytes : List UInt8) (h : bytes.length ≤ 8) :
    (bytes.foldl (fun (word : UInt64) byte => (word <<< 8) ||| byte.toUInt64) 0).toNat =
      bigEndian bytes := by
  induction bytes using List.reverseRecOn with
  | nil => rfl
  | append_singleton bytes byte ih =>
    have hlt := bigEndian_lt (bytes ++ [byte])
    have hpow : 256 ^ (bytes ++ [byte]).length ≤ 256 ^ 8 := Nat.pow_le_pow_right (by omega) h
    rw [List.length_append, List.length_singleton] at h
    rw [List.foldl_append, List.foldl_cons, List.foldl_nil, toNat_shiftIn, ih (by omega),
      ← bigEndian_snoc]
    exact Nat.mod_eq_of_lt (by omega)

theorem toNat_one_shiftLeft {length : UInt64} (h : length.toNat < 64) :
    ((1 : UInt64) <<< length).toNat = 2 ^ length.toNat := by
  have hpow : 2 ^ length.toNat ≤ 2 ^ 63 := Nat.pow_le_pow_right (by omega) (by omega)
  rw [UInt64.toNat_shiftLeft, UInt64.toNat_one, Nat.one_shiftLeft, Nat.mod_eq_of_lt h]
  exact Nat.mod_eq_of_lt (by omega)

theorem toNat_mask {length : UInt64} (h : length.toNat < 64) :
    (((1 : UInt64) <<< length) - 1).toNat = 2 ^ length.toNat - 1 := by
  have hone := toNat_one_shiftLeft h
  have hpos := Nat.two_pow_pos length.toNat
  rw [UInt64.toNat_sub_of_le, hone]
  · rfl
  · rw [UInt64.le_iff_toNat_le, hone]
    exact hpos

theorem toNat_shift_mask {word start length : UInt64} (hstart : start.toNat < 64)
    (hlength : length.toNat < 64) :
    ((word >>> start) &&& (((1 : UInt64) <<< length) - 1)).toNat =
      word.toNat / 2 ^ start.toNat % 2 ^ length.toNat := by
  rw [UInt64.toNat_and, toNat_mask hlength, Nat.and_two_pow_sub_one_eq_mod,
    UInt64.toNat_shiftRight, Nat.shiftRight_eq_div_pow, Nat.mod_eq_of_lt hstart]

/-- The two's complement reading of the low `length` bits. -/
def signExtend (word length : UInt64) : UInt64 :=
  if word &&& ((1 : UInt64) <<< (length - 1)) ≠ 0 then
    word ||| ~~~(((1 : UInt64) <<< length) - 1)
  else word

theorem toInt_toInt64 (word : UInt64) : word.toInt64.toInt = Int.bmod word.toNat (2 ^ 64) :=
  BitVec.toInt_eq_toNat_bmod word.toBitVec

theorem bmod_of_lt {n m : ℕ} (h : n < m) :
    Int.bmod n m = if 2 * n < m then (n : ℤ) else n - m := by
  have hmod : (n : ℤ) % m = n := Int.emod_eq_of_lt (by omega) (by omega)
  rw [Int.bmod_def, hmod]
  split_ifs <;> omega

theorem signBit_iff {word length : UInt64} (hpos : 0 < length.toNat) (hlength : length.toNat < 64)
    (hword : word.toNat < 2 ^ length.toNat) :
    word &&& ((1 : UInt64) <<< (length - 1)) ≠ 0 ↔ 2 ^ length.toNat ≤ 2 * word.toNat := by
  have hone : 1 ≤ length := UInt64.le_iff_toNat_le.mpr hpos
  have hprev : (length - 1).toNat = length.toNat - 1 := UInt64.toNat_sub_of_le length 1 hone
  have hpow : 2 ^ length.toNat = 2 * 2 ^ (length.toNat - 1) := by
    rw [← Nat.pow_succ']
    congr 1
    omega
  have hquot : word.toNat / 2 ^ (length.toNat - 1) < 2 := by
    rw [Nat.div_lt_iff_lt_mul (Nat.two_pow_pos _)]
    omega
  have hbit : (word &&& ((1 : UInt64) <<< (length - 1))).toNat =
      (word.toNat.testBit (length.toNat - 1)).toNat * 2 ^ (length.toNat - 1) := by
    rw [UInt64.toNat_and, toNat_one_shiftLeft (by omega), hprev, Nat.and_two_pow]
  rw [ne_eq, ← UInt64.toNat_inj, hbit, Nat.testBit_eq_decide_div_mod_eq]
  have hpos' := Nat.two_pow_pos (length.toNat - 1)
  by_cases hhigh : 2 ^ (length.toNat - 1) ≤ word.toNat
  · have : word.toNat / 2 ^ (length.toNat - 1) = 1 := by
      have := Nat.div_pos hhigh hpos'
      omega
    simp [this]
    omega
  · have : word.toNat / 2 ^ (length.toNat - 1) = 0 := Nat.div_eq_of_lt (by omega)
    simp [this]
    omega

theorem signExtend_toInt {word length : UInt64} (hpos : 0 < length.toNat)
    (hlength : length.toNat < 64) (hword : word.toNat < 2 ^ length.toNat) :
    (signExtend word length).toInt64.toInt = Int.bmod word.toNat (2 ^ length.toNat) := by
  have hpow : 2 ^ length.toNat ≤ 2 ^ 63 := Nat.pow_le_pow_right (by omega) (by omega)
  rw [toInt_toInt64, signExtend]
  by_cases hneg : 2 ^ length.toNat ≤ 2 * word.toNat
  · rw [if_pos ((signBit_iff hpos hlength hword).mpr hneg)]
    have hhigh : 2 ^ 64 - 2 ^ length.toNat = (2 ^ (64 - length.toNat) - 1) <<< length.toNat := by
      rw [Nat.shiftLeft_eq, Nat.sub_mul, Nat.one_mul, ← Nat.pow_add]
      congr 2
      omega
    have hnot : (~~~(((1 : UInt64) <<< length) - 1)).toNat = 2 ^ 64 - 2 ^ length.toNat := by
      rw [UInt64.toNat_not, toNat_mask hlength]
      change 2 ^ 64 - 1 - _ = _
      omega
    have hor : (word ||| ~~~(((1 : UInt64) <<< length) - 1)).toNat =
        word.toNat + (2 ^ 64 - 2 ^ length.toNat) := by
      rw [UInt64.toNat_or, hnot, hhigh, Nat.or_comm, ← Nat.shiftLeft_add_eq_or_of_lt hword]
      omega
    rw [hor, bmod_of_lt hword, bmod_of_lt (by omega), if_neg (by omega), if_neg (by omega)]
    omega
  · rw [if_neg (fun h => hneg ((signBit_iff hpos hlength hword).mp h)), bmod_of_lt hword,
      bmod_of_lt (by omega), if_pos (by omega), if_pos (by omega)]

end Words

section Flags

theorem toNat_and_mask (x : UInt32) (n : ℕ) (h : n < 32) :
    (x &&& UInt32.ofNat (2 ^ n - 1)).toNat = x.toNat % 2 ^ n := by
  have hpow : 2 ^ n ≤ 2 ^ 31 := Nat.pow_le_pow_right (by omega) (by omega)
  rw [UInt32.toNat_and, UInt32.toNat_ofNat_of_lt' (by change _ < 2 ^ 32; omega),
    Nat.and_two_pow_sub_one_eq_mod]

theorem flag_clear_iff (x : UInt32) (n : ℕ) (h : n < 32) :
    (x &&& UInt32.ofNat (2 ^ n) != 0) = false ↔ x.toNat / 2 ^ n % 2 = 0 := by
  have hpow : 2 ^ n ≤ 2 ^ 31 := Nat.pow_le_pow_right (by omega) (by omega)
  have hpos := Nat.two_pow_pos n
  rw [bne_eq_false_iff_eq, ← UInt32.toNat_inj, UInt32.toNat_and,
    UInt32.toNat_ofNat_of_lt' (by change _ < 2 ^ 32; omega), Nat.and_two_pow,
    Nat.testBit_eq_decide_div_mod_eq]
  rcases Nat.mod_two_eq_zero_or_one (x.toNat / 2 ^ n) with hbit | hbit
  · simp [hbit]
  · simp [hbit]

theorem toNat_or_flag {x : UInt32} {n : ℕ} (h : n < 32) (hx : x.toNat < 2 ^ n) :
    (x ||| UInt32.ofNat (2 ^ n)).toNat = x.toNat + 2 ^ n := by
  have hpow : 2 ^ n ≤ 2 ^ 31 := Nat.pow_le_pow_right (by omega) (by omega)
  have hor := Nat.two_pow_add_eq_or_of_lt hx 1
  rw [Nat.mul_one] at hor
  rw [UInt32.toNat_or, UInt32.toNat_ofNat_of_lt' (by change _ < 2 ^ 32; omega), Nat.or_comm,
    ← hor, Nat.add_comm]

end Flags

section Halves

def lowByte (word : UInt16) : UInt8 := word.toUInt8

def highByte (word : UInt16) : UInt8 := (word >>> 8).toUInt8

theorem littleEndian_halves (word : UInt16) :
    littleEndian [lowByte word, highByte word] = word.toNat := by
  have hlt : word.toNat < 2 ^ 16 := word.toNat_lt
  have hhigh : (word >>> 8).toNat = word.toNat / 256 := by
    rw [UInt16.toNat_shiftRight]
    exact Nat.shiftRight_eq_div_pow word.toNat 8
  rw [littleEndian_cons, littleEndian_cons, littleEndian_nil, lowByte, highByte,
    UInt16.toNat_toUInt8, UInt16.toNat_toUInt8, hhigh]
  omega

def littleWord (byteAt : ℕ → UInt8) (i : ℕ) : ℕ := littleEndian [byteAt i, byteAt (i + 1)]

def bigWord (byteAt : ℕ → UInt8) (i : ℕ) : ℕ := bigEndian [byteAt i, byteAt (i + 1)]

section

variable {byteAt : ℕ → UInt8} {i : ℕ} {word : UInt16}

theorem littleWord_of_halves (hlow : byteAt i = lowByte word)
    (hhigh : byteAt (i + 1) = highByte word) : littleWord byteAt i = word.toNat := by
  rw [littleWord, hlow, hhigh, littleEndian_halves]

theorem bigWord_of_halves (hhigh : byteAt i = highByte word)
    (hlow : byteAt (i + 1) = lowByte word) : bigWord byteAt i = word.toNat := by
  rw [bigWord, hlow, hhigh]
  exact littleEndian_halves word

end

end Halves

end Lib.ByteOrder
