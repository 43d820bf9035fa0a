import Mathlib.Algebra.Order.Floor.Ring
import Mathlib.Data.Int.ConditionallyCompleteOrder

set_option autoImplicit false

/-!
# Rounding towards zero

The conversion of a number to an integer as programming languages have it, what saturation to an
integer range does to it, and the numbers that are kept as integers in steps of a fixed size.
-/
namespace Lib.Rounding

def saturate {α : Type*} [LinearOrder α] (lo hi x : α) : α := max lo (min hi x)

variable {K : Type*} [Field K] [LinearOrder K]

theorem saturate_mul [IsStrictOrderedRing K] {factor : K} (hfactor : 0 < factor) (lo hi x : K) :
    saturate lo hi (x * factor) = saturate (lo / factor) (hi / factor) x * factor := by
  have hlo : lo / factor * factor = lo := div_mul_cancel₀ _ hfactor.ne'
  have hhi : hi / factor * factor = hi := div_mul_cancel₀ _ hfactor.ne'
  rw [saturate, saturate, max_mul_of_nonneg _ _ hfactor.le, min_mul_of_nonneg _ _ hfactor.le,
    hlo, hhi]

variable [FloorRing K]

def towardZero (x : K) : ℤ := if 0 ≤ x then ⌊x⌋ else ⌈x⌉

theorem towardZero_of_nonneg {x : K} (h : 0 ≤ x) : towardZero x = ⌊x⌋ := if_pos h

theorem towardZero_of_neg {x : K} (h : x < 0) : towardZero x = ⌈x⌉ := if_neg (not_le.mpr h)

theorem towardZero_mono : Monotone (towardZero : K → ℤ) := by
  intro x y hxy
  rcases le_or_gt 0 x with hx | hx
  · rw [towardZero_of_nonneg hx, towardZero_of_nonneg (hx.trans hxy)]
    exact Int.floor_le_floor hxy
  · rw [towardZero_of_neg hx]
    rcases le_or_gt 0 y with hy | hy
    · rw [towardZero_of_nonneg hy]
      have hceil : ⌈x⌉ ≤ 0 := Int.ceil_le.mpr (by exact_mod_cast hx.le)
      exact hceil.trans (Int.floor_nonneg.mpr hy)
    · rw [towardZero_of_neg hy]
      exact Int.ceil_le_ceil hxy

/-- What is read back of a number kept in steps of `1 / factor` by an integer from `lo` to `hi`. -/
def fixedPoint (factor : K) (lo hi : ℤ) (x : K) : K :=
  (towardZero (saturate (lo : K) hi (x * factor)) : K) / factor

theorem fixedPoint_one (lo hi : ℤ) (x : K) :
    fixedPoint 1 lo hi x = towardZero (saturate (lo : K) hi x) := by
  rw [fixedPoint, mul_one, div_one]

variable [IsStrictOrderedRing K]

theorem abs_towardZero_sub_lt (x : K) : |(towardZero x : K) - x| < 1 := by
  rw [abs_sub_lt_iff]
  rcases le_or_gt 0 x with h | h
  · rw [towardZero_of_nonneg h]
    have hle := Int.floor_le x
    have hlt := Int.lt_floor_add_one x
    constructor <;> linarith
  · rw [towardZero_of_neg h]
    have hle := Int.le_ceil x
    have hlt := Int.ceil_lt_add_one x
    constructor <;> linarith

theorem towardZero_intCast (n : ℤ) : towardZero (n : K) = n := by
  rw [towardZero, Int.floor_intCast, Int.ceil_intCast, ite_self]

theorem le_towardZero {n : ℤ} {x : K} (hn : 0 < n) : n ≤ towardZero x ↔ (n : K) ≤ x := by
  rcases le_or_gt 0 x with h | h
  · rw [towardZero_of_nonneg h, Int.le_floor]
  · rw [towardZero_of_neg h]
    have hceil : ⌈x⌉ ≤ 0 := Int.ceil_le.mpr (by exact_mod_cast h.le)
    have hpos : (0 : K) < n := by exact_mod_cast hn
    constructor <;> intro hle
    · omega
    · linarith

/-- Saturation keeps the comparison with a positive integer of the range. -/
theorem le_towardZero_saturate {lo hi n : ℤ} (hpos : 0 < n) (hlo : lo < n) (hhi : n ≤ hi) (x : K) :
    n ≤ towardZero (saturate (lo : K) hi x) ↔ (n : K) ≤ x := by
  have hlo' : ¬ (n : K) ≤ lo := by exact_mod_cast hlo.not_ge
  have hhi' : (n : K) ≤ hi := by exact_mod_cast hhi
  rw [le_towardZero hpos, saturate, le_max_iff, le_min_iff, or_iff_right hlo',
    and_iff_right hhi']

section FixedPoint

variable {factor : K} {lo hi : ℤ}

theorem abs_fixedPoint_sub_lt (hfactor : 0 < factor) (x : K) :
    |fixedPoint factor lo hi x - saturate (lo / factor) (hi / factor) x| < 1 / factor := by
  have hscaled : saturate (lo / factor) (hi / factor) x =
      saturate (lo : K) hi (x * factor) / factor := by
    rw [saturate_mul hfactor, mul_div_cancel_right₀ _ hfactor.ne']
  rw [fixedPoint, hscaled, ← sub_div, abs_div, abs_of_pos hfactor]
  exact div_lt_div_of_pos_right (abs_towardZero_sub_lt _) hfactor

theorem fixedPoint_mono (hfactor : 0 < factor) : Monotone (fixedPoint factor lo hi) := by
  intro x y hxy
  have hscaled : x * factor ≤ y * factor := mul_le_mul_of_nonneg_right hxy hfactor.le
  have hsaturated : saturate (lo : K) hi (x * factor) ≤ saturate (lo : K) hi (y * factor) :=
    max_le_max_left _ (min_le_min_left _ hscaled)
  have hrounded : (towardZero (saturate (lo : K) hi (x * factor)) : K) ≤
      towardZero (saturate (lo : K) hi (y * factor)) := by
    exact_mod_cast towardZero_mono hsaturated
  exact div_le_div_of_nonneg_right hrounded hfactor.le

theorem fixedPoint_of_le (hfactor : 0 < factor) (hrange : lo ≤ hi) {x : K} (h : x ≤ lo / factor) :
    fixedPoint factor lo hi x = lo / factor := by
  have hrange' : (lo : K) ≤ hi := by exact_mod_cast hrange
  have hscaled : x * factor ≤ lo := (le_div_iff₀ hfactor).mp h
  rw [fixedPoint, saturate, min_eq_right (hscaled.trans hrange'), max_eq_left hscaled,
    towardZero_intCast]

theorem fixedPoint_of_ge (hfactor : 0 < factor) (hrange : lo ≤ hi) {x : K} (h : hi / factor ≤ x) :
    fixedPoint factor lo hi x = hi / factor := by
  have hrange' : (lo : K) ≤ hi := by exact_mod_cast hrange
  have hscaled : (hi : K) ≤ x * factor := (div_le_iff₀ hfactor).mp h
  rw [fixedPoint, saturate, min_eq_left hscaled, max_eq_right hrange', towardZero_intCast]

theorem fixedPoint_mem (hfactor : 0 < factor) (hrange : lo ≤ hi) (x : K) :
    lo / factor ≤ fixedPoint factor lo hi x ∧ fixedPoint factor lo hi x ≤ hi / factor := by
  constructor
  · rcases le_total x (lo / factor) with h | h
    · exact (fixedPoint_of_le hfactor hrange h).ge
    · have hends := fixedPoint_of_le hfactor hrange (le_refl ((lo : K) / factor))
      exact hends.symm.le.trans (fixedPoint_mono hfactor h)
  · rcases le_total x (hi / factor) with h | h
    · have hends := fixedPoint_of_ge hfactor hrange (le_refl ((hi : K) / factor))
      exact (fixedPoint_mono hfactor h).trans hends.le
    · exact (fixedPoint_of_ge hfactor hrange h).le

end FixedPoint

end Lib.Rounding
