import Mathlib.Algebra.Group.Int.Defs
import Mathlib.Algebra.Group.Nat.Defs

set_option autoImplicit false

/-!
# Clocks that wrap around

A clock read modulo `m` tells the distance of two readings modulo `m` only. A bound on it is
exact for distances below `m`, and beyond that where the remainder misses the bound. A clock that
is read in full and stored with a sign modulo `m` is later than all that is stored from `m` on.
-/
namespace Lib.WrapClock

def elapsed (m now past : ℕ) : ℕ := (m - past % m + now % m) % m

theorem elapsed_eq {m past now : ℕ} (hm : 0 < m) (h : past ≤ now) :
    elapsed m now past = (now - past) % m := by
  have hlt := Nat.mod_lt past hm
  have hdiv := Nat.div_add_mod past m
  have hsum : m - past % m + now = now - past + m * (past / m + 1) := by
    rw [Nat.mul_add, Nat.mul_one]
    omega
  rw [elapsed, Nat.add_mod_mod, hsum, Nat.add_mul_mod_self_left]

theorem recent_exact_iff {m limit gap : ℕ} (hlimit : limit ≤ m) :
    (gap % m < limit ↔ gap < limit) ↔ gap < m ∨ limit ≤ gap % m := by
  by_cases hgap : gap < m
  · rw [Nat.mod_eq_of_lt hgap]
    simp [hgap]
  · have hold : ¬ gap < limit := by omega
    simp only [hold, hgap, iff_false, false_or]
    omega

section Stored

variable {m : ℕ}

theorem stored_lt_elapsed (hm : 0 < m) {now : ℤ} (hlate : m ≤ now) (x past : ℤ) :
    x.bmod m < now - past.bmod m := by
  have hx := Int.bmod_le (x := x) hm
  have hpast := Int.bmod_le (x := past) hm
  omega

def toInt32 (x : ℤ) : ℤ := x.bmod (2 ^ 32)

theorem toInt32_lt (x : ℤ) : toInt32 x < 2 ^ 31 := by
  have hx := Int.bmod_lt (x := x) (m := 2 ^ 32) (by decide)
  unfold toInt32
  omega

theorem toInt32_eq_self_iff {x : ℤ} (hx : 0 ≤ x) : toInt32 x = x ↔ x < 2 ^ 31 := by
  constructor
  · intro h
    rw [← h]
    exact toInt32_lt x
  · intro h
    unfold toInt32
    rw [Int.bmod_eq_of_le_mul_two] <;> omega

/-- The distance to a stored reading is stored as the distance to the reading. -/
theorem toInt32_elapsed (now past : ℤ) : toInt32 (now - toInt32 past) = toInt32 (now - past) :=
  Int.sub_bmod_bmod

theorem toInt32_lt_elapsed {now : ℤ} (hlate : 2 ^ 32 ≤ now) (x past : ℤ) :
    toInt32 x < now - toInt32 past := stored_lt_elapsed (by decide) hlate x past

end Stored

end Lib.WrapClock
