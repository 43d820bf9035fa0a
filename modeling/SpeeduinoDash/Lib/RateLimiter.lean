import Mathlib.Algebra.Order.Field.Basic
import Mathlib.Data.List.Chain
import Mathlib.Tactic.Linarith
import Mathlib.Tactic.Ring
import SpeeduinoDash.Lib.Runs

set_option autoImplicit false

/-!
# Token buckets over an ordered field

A bucket holds between `0` and `cap` tokens, gains `rate` of them a second and pays one for
each granted request. What a bucket is for is `Conforms`: in every window of `T` seconds the
grants are at most `cap + rate * T`.
-/
namespace Lib.RateLimiter
open Lib.Runs

variable {K : Type*} [Field K] [LinearOrder K]

structure Limits (K : Type*) [Field K] [LinearOrder K] where
  cap : K
  rate : K
  cap_nonneg : 0 ≤ cap
  rate_nonneg : 0 ≤ rate

structure Bucket (L : Limits K) where
  level : K
  since : K
  nonneg : 0 ≤ level
  le_cap : level ≤ L.cap

variable {L : Limits K}

def Bucket.refilled (b : Bucket L) (t : K) : K :=
  min L.cap (b.level + max 0 (t - b.since) * L.rate)

theorem Bucket.refilled_le_cap (b : Bucket L) (t : K) : b.refilled t ≤ L.cap :=
  min_le_left _ _

def inWindow (a T : K) (ts : List K) : ℕ := (ts.filter (fun t => a ≤ t ∧ t ≤ a + T)).length

theorem inWindow_cons (a T t : K) (ts : List K) :
    inWindow a T (t :: ts) = inWindow a T ts + if a ≤ t ∧ t ≤ a + T then 1 else 0 := by
  unfold inWindow
  rw [List.filter_cons]
  split_ifs with h <;> simp_all

theorem inWindow_eq_zero {a T : K} {ts : List K} (h : ∀ t ∈ ts, a + T < t) :
    inWindow a T ts = 0 := by
  unfold inWindow
  rw [List.length_eq_zero_iff, List.filter_eq_nil_iff]
  intro t ht
  simpa using fun _ => h t ht

def Conforms (L : Limits K) (ts : List K) : Prop :=
  ∀ a T, 0 ≤ T → (inWindow a T ts : K) ≤ L.cap + L.rate * T

variable [IsStrictOrderedRing K]

theorem Bucket.refilled_nonneg (b : Bucket L) (t : K) : 0 ≤ b.refilled t :=
  le_min L.cap_nonneg
    (add_nonneg b.nonneg (mul_nonneg (le_max_left _ _) L.rate_nonneg))

theorem Bucket.refilled_le (b : Bucket L) {t : K} (h : b.since ≤ t) :
    b.refilled t ≤ b.level + (t - b.since) * L.rate := by
  unfold Bucket.refilled
  rw [max_eq_right (sub_nonneg.mpr h)]
  exact min_le_right _ _

def Bucket.take (b : Bucket L) (t : K) : Bucket L × Bool :=
  if h : 1 ≤ b.refilled t then
    (⟨b.refilled t - 1, t, by linarith, by have := b.refilled_le_cap t; linarith⟩, true)
  else (⟨b.refilled t, t, b.refilled_nonneg t, b.refilled_le_cap t⟩, false)

@[simp] theorem Bucket.take_since (b : Bucket L) (t : K) : (b.take t).1.since = t := by
  unfold Bucket.take
  split <;> rfl

theorem Bucket.take_level (b : Bucket L) (t : K) :
    (b.take t).1.level = b.refilled t - if (b.take t).2 then 1 else 0 := by
  unfold Bucket.take
  split <;> simp

def granted (b : Bucket L) : List K → List K
  | [] => []
  | t :: ts => if (b.take t).2 then t :: granted (b.take t).1 ts else granted (b.take t).1 ts

theorem granted_subset (b : Bucket L) (ts : List K) : granted b ts ⊆ ts := by
  induction ts generalizing b with
  | nil => exact List.Subset.refl _
  | cons t ts ih =>
    unfold granted
    split_ifs
    · exact List.cons_subset_cons t (ih _)
    · exact List.Subset.trans (ih _) (List.subset_cons_self t ts)

theorem inWindow_granted_after {a T t : K} (b : Bucket L) {ts : List K}
    (hts : Clocked id t ts) (h : a + T < t) : inWindow a T (granted b ts) = 0 :=
  inWindow_eq_zero (fun s hs => h.trans_le (hts.1 s (granted_subset b ts hs)))

/-- From a time inside the window on, the grants are paid from the level and from what the
    rest of the window refills. -/
theorem inWindow_granted_le_level {a T : K} (b : Bucket L) (ts : List K)
    (hts : Clocked id b.since ts) (hb : b.since ≤ a + T) :
    (inWindow a T (granted b ts) : K) ≤ b.level + (a + T - b.since) * L.rate := by
  induction ts generalizing b with
  | nil =>
    have := mul_nonneg (sub_nonneg.mpr hb) L.rate_nonneg
    simpa [granted, inWindow] using add_nonneg b.nonneg this
  | cons t ts ih =>
    obtain ⟨ht, htail⟩ := hts.cons
    simp only [id_eq] at ht htail
    by_cases hin : t ≤ a + T
    · have hrec := ih (b.take t).1 (by simpa using htail) (by simpa using hin)
      have hle := b.refilled_le ht
      have hlevel := b.take_level t
      rw [Bucket.take_since] at hrec
      unfold granted
      split_ifs with hok
      · rw [inWindow_cons]
        simp only [hok, if_true] at hlevel
        have hone : ((if a ≤ t ∧ t ≤ a + T then 1 else 0 : ℕ) : K) ≤ 1 := by
          split_ifs <;> simp
        push_cast at hone ⊢
        linarith
      · simp only [hok, Bool.false_eq_true, if_false] at hlevel
        linarith
    · have hlt : a + T < t := lt_of_not_ge hin
      have hall : Clocked id t (t :: ts) := by
        refine ⟨fun s hs => ?_, hts.2⟩
        rcases List.mem_cons.mp hs with rfl | hs
        · exact le_refl _
        · exact htail.1 s hs
      rw [inWindow_granted_after b hall hlt]
      have := mul_nonneg (sub_nonneg.mpr hb) L.rate_nonneg
      simpa using add_nonneg b.nonneg this

/-- Before the window nothing counts; the first request inside finds at most `cap` tokens. -/
theorem granted_conforms (b : Bucket L) (ts : List K) (hts : Clocked id b.since ts) :
    Conforms L (granted b ts) := by
  intro a T hT
  have hbudget : 0 ≤ L.cap + L.rate * T :=
    add_nonneg L.cap_nonneg (mul_nonneg L.rate_nonneg hT)
  induction ts generalizing b with
  | nil => simpa [granted, inWindow] using hbudget
  | cons t ts ih =>
    obtain ⟨-, htail⟩ := hts.cons
    simp only [id_eq] at htail
    have htail' : Clocked id (b.take t).1.since ts := by simpa using htail
    have hskip := ih (b.take t).1 htail'
    unfold granted
    by_cases hin : a ≤ t ∧ t ≤ a + T
    · have hrec := inWindow_granted_le_level (a := a) (T := T) (b.take t).1 ts htail'
        (by simpa using hin.2)
      rw [Bucket.take_since, b.take_level t] at hrec
      have hcap := b.refilled_le_cap t
      have hwin : (a + T - t) * L.rate ≤ L.rate * T := by
        rw [mul_comm]
        exact mul_le_mul_of_nonneg_left (by linarith [hin.1]) L.rate_nonneg
      split_ifs with hok
      · rw [inWindow_cons, if_pos hin]
        simp only [hok, if_true] at hrec
        push_cast
        linarith
      · simp only [hok, Bool.false_eq_true, if_false] at hrec
        linarith
    · split_ifs
      · rw [inWindow_cons, if_neg hin]
        simpa using hskip
      · exact hskip

theorem granted_spaced (b : Bucket L) (ts : List K) (hts : Clocked id b.since ts)
    (hcap : 1 ≤ L.cap) (hfull : ∀ t ∈ ts.head?, L.cap ≤ b.level + (t - b.since) * L.rate)
    (hgap : ts.IsChain (fun s t => 1 ≤ (t - s) * L.rate)) : granted b ts = ts := by
  induction ts generalizing b with
  | nil => rfl
  | cons t ts ih =>
    obtain ⟨ht, htail⟩ := hts.cons
    simp only [id_eq] at ht htail
    have hlevel : b.refilled t = L.cap := by
      unfold Bucket.refilled
      rw [max_eq_right (sub_nonneg.mpr ht)]
      exact min_eq_left (hfull t rfl)
    have hok : (b.take t).2 = true := by
      unfold Bucket.take
      rw [dif_pos (hlevel ▸ hcap)]
    have hrest : granted (b.take t).1 ts = ts := by
      refine ih (b.take t).1 (by simpa using htail) ?_ hgap.tail
      intro s hs
      have hst := (List.isChain_cons.mp hgap).1 s hs
      have hpaid := b.take_level t
      rw [hok, hlevel] at hpaid
      simp only [if_true] at hpaid
      rw [Bucket.take_since, hpaid]
      linarith
    unfold granted
    rw [if_pos hok, hrest]

end Lib.RateLimiter
