import Mathlib.Data.Int.CardIntervalMod

set_option autoImplicit false

/-!
# Rates divided down from a wrapping counter

A counter modulo `w` is incremented at every tick, and a divider takes the ticks that leave it at
a given remainder modulo `m`.
-/
namespace Lib.Divider

section Remainders

variable (m r : ℕ)

def below (b : ℕ) : ℕ := Nat.count (fun k => k % m = r) b

theorem below_eq {m r : ℕ} (hr : r < m) (b : ℕ) : below m r b = (b + (m - 1 - r)) / m := by
  have hcount := Nat.count_modEq_card b (r := m) (Nat.zero_lt_of_lt hr) r
  have hbelow : below m r b = b.count (· ≡ r [MOD m]) := by
    rw [below]
    congr 1
    funext k
    rw [Nat.ModEq, Nat.mod_eq_of_lt hr]
  have hlt := Nat.mod_lt b (Nat.zero_lt_of_lt hr)
  have hsplit : b + (m - 1 - r) = b % m + (m - 1 - r) + m * (b / m) := by
    rw [Nat.add_right_comm, Nat.mod_add_div]
  rw [hbelow, hcount, Nat.mod_eq_of_lt hr, hsplit,
    Nat.add_mul_div_left _ _ (Nat.zero_lt_of_lt hr), Nat.add_comm]
  congr 1
  split_ifs with hpast
  · rw [Nat.div_eq_of_lt_le] <;> omega
  · rw [Nat.div_eq_of_lt]
    omega

theorem below_add (b n : ℕ) :
    below m r (b + n) = below m r b + Nat.count (fun k => (b + k) % m = r) n :=
  Nat.count_add ..

end Remainders

variable (w m r : ℕ)

/-- Of the `n` ticks after a counter stands at `c`, those that leave it at the remainder `r`. -/
def hits (c n : ℕ) : ℕ := Nat.count (fun k => (c + 1 + k) % w % m = r) n

@[simp] theorem hits_zero (c : ℕ) : hits w m r c 0 = 0 := Nat.count_zero _

theorem hits_succ (c n : ℕ) :
    hits w m r c (n + 1) = (if (c + 1) % w % m = r then 1 else 0) + hits w m r (c + 1) n := by
  have hshift : (fun k => (c + 1 + (k + 1)) % w % m = r) = fun k => (c + 1 + 1 + k) % w % m = r := by
    funext k
    rw [Nat.add_comm k 1, ← Nat.add_assoc]
  rw [hits, hits, Nat.count_succ', Nat.add_comm]
  simp only [hshift, Nat.add_zero]

theorem hits_one (c n : ℕ) : hits w 1 0 c n = n :=
  Nat.count_of_forall fun _ _ => Nat.mod_one _

theorem hits_mod (c n : ℕ) : hits w m r (c % w) n = hits w m r c n := by
  unfold hits
  congr 1
  funext k
  rw [Nat.add_assoc, Nat.add_assoc, Nat.mod_add_mod]

theorem hits_add (c a b : ℕ) : hits w m r c (a + b) = hits w m r c a + hits w m r (c + a) b := by
  rw [hits, Nat.count_add, hits, hits]
  congr 2
  funext k
  rw [← Nat.add_assoc, Nat.add_right_comm c 1 a]

variable {w m r}

theorem count_congr {p q : ℕ → Prop} [DecidablePred p] [DecidablePred q] {n : ℕ}
    (h : ∀ k < n, p k ↔ q k) : Nat.count p n = Nat.count q n := by
  apply Nat.le_antisymm
  · exact Nat.count_mono_left fun k hk => (h k hk).mp
  · exact Nat.count_mono_left fun k hk => (h k hk).mpr

theorem hits_of_lt {c n : ℕ} (h : c + n < w) :
    below m r (c + 1) + hits w m r c n = below m r (c + 1 + n) := by
  rw [below_add m r (c + 1) n, hits]
  congr 1
  apply count_congr
  intro k hk
  rw [Nat.mod_eq_of_lt (show c + 1 + k < w by omega)]

theorem hits_of_wrap {c a b : ℕ} (ha : c + 1 + a = w) (hb : b ≤ w) :
    below m r (c + 1) + hits w m r c (a + b) = below m r w + below m r b := by
  have hfirst := hits_of_lt (m := m) (r := r) (show c + a < w by omega)
  have hrest : hits w m r (c + a) b = below m r b := by
    apply count_congr
    intro k hk
    have hsum : c + a + 1 + k = w + k := by omega
    rw [hsum, Nat.add_mod_left, Nat.mod_eq_of_lt (show k < w by omega)]
  rw [hits_add, hrest, ← Nat.add_assoc, hfirst, ha]

/-! The ticks that are taken, on a counter that is not read modulo `w` -/

theorem exists_next {m r : ℕ} (hr : r < m) (c : ℕ) : ∃ n, c < n ∧ n ≤ c + m ∧ n % m = r := by
  have hsplit := Nat.div_add_mod (c + m - r) m
  have hlt := Nat.mod_lt (c + m - r) (Nat.zero_lt_of_lt hr)
  refine ⟨m * ((c + m - r) / m) + r, by omega, by omega, ?_⟩
  rw [Nat.mul_add_mod, Nat.mod_eq_of_lt hr]

/-- The next tick that is taken comes within `m` ticks, and where the counter wraps within `r`
    more. -/
theorem exists_hit {w m r : ℕ} (hr : r < m) (hw : m ≤ w) (c : ℕ) :
    ∃ n, 0 < n ∧ n ≤ m + r ∧ (c + n) % w % m = r := by
  have hlt := Nat.mod_lt c (Nat.lt_of_lt_of_le (Nat.zero_lt_of_lt hr) hw)
  obtain ⟨k, hafter, hwithin, hk⟩ := exists_next hr (c % w)
  rcases Nat.lt_or_ge k w with hno | hwraps
  · refine ⟨k - c % w, by omega, by omega, ?_⟩
    have hsum : c % w + (k - c % w) = k := by omega
    rw [← Nat.mod_add_mod, hsum, Nat.mod_eq_of_lt hno, hk]
  · refine ⟨w - c % w + r, by omega, by omega, ?_⟩
    have hsum : c % w + (w - c % w + r) = w + r := by omega
    rw [← Nat.mod_add_mod, hsum, Nat.add_mod_left, Nat.mod_eq_of_lt (Nat.lt_of_lt_of_le hr hw),
      Nat.mod_eq_of_lt hr]

/-- The tick that a counter would stand at that gained `g` whenever it wrapped. -/
def mark (w g n : ℕ) : ℕ := n + g * (n / w)

theorem mark_mod {w m g : ℕ} (hg : m ∣ w + g) (n : ℕ) : mark w g n % m = n % w % m := by
  have hmark : mark w g n = n % w + (w + g) * (n / w) := by
    have hsplit := Nat.div_add_mod n w
    rw [mark, Nat.add_mul]
    omega
  obtain ⟨k, hk⟩ := hg
  rw [hmark, hk, Nat.mul_assoc, Nat.add_mul_mod_self_left]

/-- The ticks that are taken are `m` apart in this count. -/
theorem mark_apart {w m r g a b : ℕ} (hg : m ∣ w + g) (ha : a % w % m = r) (hb : b % w % m = r)
    (hab : a < b) : mark w g a + m ≤ mark w g b := by
  have hlt : mark w g a < mark w g b :=
    Nat.add_lt_add_of_lt_of_le hab (Nat.mul_le_mul_left g (Nat.div_le_div_right hab.le))
  refine Nat.ModEq.add_le_of_lt ?_ hlt
  rw [Nat.ModEq, mark_mod hg, mark_mod hg, ha, hb]

theorem mark_gain {w g a b : ℕ} (hw : 0 < w) (hb : b ≤ a + w) :
    mark w g b + a ≤ mark w g a + b + g := by
  have hdiv : b / w ≤ a / w + 1 := by
    rw [← Nat.add_div_right a hw]
    exact Nat.div_le_div_right hb
  have hgain := Nat.mul_le_mul_left g hdiv
  rw [Nat.mul_succ] at hgain
  unfold mark
  omega

end Lib.Divider
