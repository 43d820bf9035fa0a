import Mathlib.Data.Rat.Floor
import Mathlib.Tactic.NormNum
import SpeeduinoDash.EngineSummary
import SpeeduinoDash.Lib.Rounding

set_option autoImplicit false

/-!
# The clamping conversions, exactly

With exact rationals each of the four conversions saturates and then rounds towards zero, and the
machine integer holds the result.
-/
namespace SpeeduinoDash
open Lib.Rounding

theorem truncate_eq (q : ℚ) : Truncate.truncate q = towardZero q := by
  change q.num.tdiv q.den = _
  rcases le_or_gt 0 q with h | h
  · rw [towardZero_of_nonneg h, Rat.floor_def', Int.tdiv_eq_ediv_of_nonneg (Rat.num_nonneg.mpr h)]
  · have hnum : 0 ≤ -q.num := Int.neg_nonneg_of_nonpos (Rat.num_nonpos.mpr h.le)
    rw [towardZero_of_neg h, Rat.ceil_def', ← Int.tdiv_eq_ediv_of_nonneg hnum, Int.neg_tdiv, neg_neg]

theorem clampTo_eq {α : Type} (toInt : α → ℤ) (lo hi : ℤ) {lo' hi' : ℚ} {least greatest : α}
    {convert : ℤ → α} (hrange : lo ≤ hi) (hlo : lo' = lo) (hhi : hi' = hi)
    (hleast : toInt least = lo) (hgreatest : toInt greatest = hi)
    (hconvert : ∀ n, lo ≤ n → n ≤ hi → toInt (convert n) = n) (val : ℚ) :
    toInt (clampTo lo' hi' least greatest convert val) =
      towardZero (saturate (lo : ℚ) hi val) := by
  subst hlo hhi
  have hrange' : (lo : ℚ) ≤ hi := by exact_mod_cast hrange
  rw [clampTo, saturate]
  split_ifs with hbelow habove
  · rw [min_eq_right (hbelow.le.trans hrange'), max_eq_left hbelow.le, towardZero_intCast, hleast]
  · rw [min_eq_left habove.le, max_eq_right hrange', towardZero_intCast, hgreatest]
  · rw [min_eq_right (not_lt.mp habove), max_eq_right (not_lt.mp hbelow), truncate_eq]
    apply hconvert
    · rw [← towardZero_intCast (K := ℚ) lo]
      exact towardZero_mono (not_lt.mp hbelow)
    · rw [← towardZero_intCast (K := ℚ) hi]
      exact towardZero_mono (not_lt.mp habove)

theorem clampU16_toInt (val : ℚ) :
    ((clampU16 val).toNat : ℤ) = towardZero (saturate ((0 : ℤ) : ℚ) (65535 : ℤ) val) := by
  refine clampTo_eq (fun x : UInt16 => (x.toNat : ℤ)) 0 65535 (by decide) (by norm_num)
    (by norm_num) rfl rfl ?_ val
  intro n hlo hhi
  change (((n % 2 ^ 16).toNat % 2 ^ 16 : ℕ) : ℤ) = n
  omega

theorem clampU8_toInt (val : ℚ) :
    ((clampU8 val).toNat : ℤ) = towardZero (saturate ((0 : ℤ) : ℚ) (255 : ℤ) val) := by
  refine clampTo_eq (fun x : UInt8 => (x.toNat : ℤ)) 0 255 (by decide) (by norm_num)
    (by norm_num) rfl rfl ?_ val
  intro n hlo hhi
  change (((n % 2 ^ 8).toNat % 2 ^ 8 : ℕ) : ℤ) = n
  omega

theorem clampI16_toInt (val : ℚ) :
    (clampI16 val).toInt = towardZero (saturate ((-32768 : ℤ) : ℚ) (32767 : ℤ) val) := by
  refine clampTo_eq Int16.toInt (-32768) 32767 (by decide) (by norm_num) (by norm_num) rfl rfl
    ?_ val
  intro n hlo hhi
  exact Int16.toInt_ofInt_of_le hlo (by omega)

theorem clampI8_toInt (val : ℚ) :
    (clampI8 val).toInt = towardZero (saturate ((-128 : ℤ) : ℚ) (127 : ℤ) val) := by
  refine clampTo_eq Int8.toInt (-128) 127 (by decide) (by norm_num) (by norm_num) rfl rfl ?_ val
  intro n hlo hhi
  exact Int8.toInt_ofInt_of_le hlo (by omega)

theorem le_clampU16_iff {n : ℕ} (hpos : 0 < n) (hle : n ≤ 65535) (val : ℚ) :
    n ≤ (clampU16 val).toNat ↔ (n : ℚ) ≤ val := by
  rw [← Int.ofNat_le, clampU16_toInt, le_towardZero_saturate (by omega) (by omega) (by omega),
    Int.cast_natCast]

theorem le_clampI8_iff {n : ℤ} (hpos : 0 < n) (hle : n ≤ 127) (val : ℚ) :
    n ≤ (clampI8 val).toInt ↔ (n : ℚ) ≤ val := by
  rw [clampI8_toInt, le_towardZero_saturate hpos (by omega) hle]

theorem clampU16_lt_iff {n : ℕ} (hpos : 0 < n) (hle : n ≤ 65535) (val : ℚ) :
    (clampU16 val).toNat < n ↔ val < (n : ℚ) := by
  rw [← not_le, le_clampU16_iff hpos hle, not_le]

section Lookup

variable {lookup : String → Option ℚ} {name : String}

theorem getValue_of_mem {value : ℚ} (h : value ∈ lookup name) : getValue lookup name = value := by
  rw [getValue, Option.mem_def.mp h]
  rfl

theorem getValue_of_none (h : lookup name = none) : getValue lookup name = 0 := by
  rw [getValue, h, Option.getD_none]
  norm_num

theorem exists_of_getValue_pos (h : 0 < getValue lookup name) :
    ∃ value ∈ lookup name, getValue lookup name = value := by
  cases hlookup : lookup name with
  | none =>
    rw [getValue_of_none hlookup] at h
    exact absurd h (lt_irrefl 0)
  | some value => exact ⟨value, rfl, getValue_of_mem hlookup⟩

end Lookup

end SpeeduinoDash
