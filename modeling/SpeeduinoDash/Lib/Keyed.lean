import Mathlib.Data.List.Induction
import Mathlib.Logic.Function.Basic
import Mathlib.Tactic.SplitIfs

set_option autoImplicit false

/-!
# Keyed stores fed from a list

A hash map is the function that looks a key up. Filled from a list by assignment it holds the
last entry of each key, filled by `emplace` the first.
-/
namespace Lib.Keyed

section Last

variable {γ : Type*} (p : γ → Bool)

def lastWhere (xs : List γ) : Option γ := (xs.filter p).getLast?

@[simp] theorem lastWhere_nil : lastWhere p [] = none := rfl

theorem lastWhere_append (xs ys : List γ) :
    lastWhere p (xs ++ ys) = (lastWhere p ys).or (lastWhere p xs) := by
  simp [lastWhere, List.filter_append, List.getLast?_append]

theorem lastWhere_snoc (xs : List γ) (y : γ) :
    lastWhere p (xs ++ [y]) = if p y then some y else lastWhere p xs := by
  rw [lastWhere_append]
  by_cases h : p y = true <;> simp [lastWhere, h]

theorem lastWhere_eq_none {xs : List γ} : lastWhere p xs = none ↔ ∀ x ∈ xs, p x = false := by
  unfold lastWhere
  rw [List.getLast?_eq_none_iff, List.filter_eq_nil_iff]
  simp

theorem lastWhere_mem {xs : List γ} {x : γ} (h : lastWhere p xs = some x) :
    x ∈ xs ∧ p x = true := List.mem_filter.mp (List.mem_of_getLast? h)

theorem lastWhere_isSome {xs : List γ} : (lastWhere p xs).isSome ↔ ∃ x ∈ xs, p x = true := by
  rw [Option.isSome_iff_ne_none, Ne, lastWhere_eq_none]
  push Not
  simp

theorem lastWhere_congr {xs ys : List γ} (h : xs.filter p = ys.filter p) :
    lastWhere p xs = lastWhere p ys := congrArg List.getLast? h

theorem lastWhere_cons (x : γ) (xs : List γ) :
    lastWhere p (x :: xs) = (lastWhere p xs).or (if p x then some x else none) := by
  change lastWhere p ([x] ++ xs) = _
  rw [lastWhere_append]
  by_cases h : p x = true <;> simp [lastWhere, h]

theorem lastWhere_repeat (xs ys zs : List γ) (x : γ) (h : p x = true → ∀ y ∈ ys, p y = false) :
    lastWhere p (xs ++ x :: ys ++ x :: zs) = lastWhere p (xs ++ x :: ys ++ zs) := by
  rw [lastWhere_append, lastWhere_append p _ zs, lastWhere_cons]
  cases hzs : lastWhere p zs with
  | some z => rfl
  | none =>
    rw [Option.none_or, Option.none_or]
    split_ifs with hx
    · have hys : lastWhere p ys = none := (lastWhere_eq_none p).mpr (h hx)
      rw [lastWhere_append, lastWhere_cons, hys, if_pos hx]
      rfl
    · rfl

end Last

section Unique

variable {κ γ : Type*} [DecidableEq κ] (key : γ → κ)

theorem find?_of_nodup {xs : List γ} (h : (xs.map key).Nodup) {x : γ} (hx : x ∈ xs) :
    xs.find? (fun y => key y == key x) = some x := by
  induction xs with
  | nil => exact absurd hx List.not_mem_nil
  | cons y xs ih =>
    rw [List.map_cons, List.nodup_cons] at h
    rw [List.find?_cons]
    rcases List.mem_cons.mp hx with rfl | hx
    · rw [beq_self_eq_true]
    · have hne : key y ≠ key x := fun he => h.1 (he ▸ List.mem_map_of_mem hx)
      rw [beq_false_of_ne hne]
      exact ih h.2 hx

theorem find?_eq_some_iff_of_nodup {xs : List γ} (h : (xs.map key).Nodup) (k : κ) (x : γ) :
    xs.find? (fun y => key y == k) = some x ↔ x ∈ xs ∧ key x = k := by
  constructor
  · intro hfind
    exact ⟨List.mem_of_find?_eq_some hfind, by simpa using List.find?_some hfind⟩
  · rintro ⟨hmem, rfl⟩
    exact find?_of_nodup key h hmem

theorem find?_perm_of_nodup {xs ys : List γ} (hperm : xs.Perm ys) (h : (xs.map key).Nodup)
    (k : κ) : xs.find? (fun x => key x == k) = ys.find? (fun x => key x == k) := by
  cases hfind : ys.find? (fun y => key y == k) with
  | none =>
    rw [List.find?_eq_none] at hfind ⊢
    intro x hx
    exact hfind x (hperm.mem_iff.mp hx)
  | some y =>
    have hmem : y ∈ xs := hperm.mem_iff.mpr (List.mem_of_find?_eq_some hfind)
    have hkey : (key y == k) = true := by simpa using List.find?_some hfind
    rw [← beq_iff_eq.mp hkey]
    exact find?_of_nodup key h hmem

/-- With distinct keys the last element with a key is the only one, so a filter keeps it or
    drops it. -/
theorem lastWhere_filter_of_nodup (q : γ → Bool) {xs : List γ} (h : (xs.map key).Nodup) (k : κ) :
    lastWhere (fun x => key x == k) (xs.filter q) = (xs.find? (fun x => key x == k)).filter q := by
  induction xs with
  | nil => rfl
  | cons x xs ih =>
    rw [List.map_cons, List.nodup_cons] at h
    have hrest := ih h.2
    rw [List.find?_cons, List.filter_cons]
    by_cases hx : key x = k
    · have hnone : xs.find? (fun y => key y == k) = none := by
        rw [List.find?_eq_none]
        intro y hy hyk
        exact h.1 (List.mem_map.mpr ⟨y, hy, (beq_iff_eq.mp hyk).trans hx.symm⟩)
      rw [hnone] at hrest
      rw [beq_iff_eq.mpr hx]
      cases hq : q x with
      | true =>
        rw [if_pos rfl]
        rw [lastWhere_cons, hrest]
        simp [hx, Option.filter, hq]
      | false =>
        rw [if_neg Bool.false_ne_true, hrest]
        simp [Option.filter, hq]
    · rw [beq_false_of_ne hx, ← hrest]
      split_ifs
      · rw [lastWhere_cons]
        simp [hx]
      · rfl

end Unique

section Store

variable {κ β γ : Type*} [DecidableEq κ]

/-- `m[k] = v`. -/
def assign (m : κ → Option β) (k : κ) (v : β) : κ → Option β := Function.update m k (some v)

/-- `m.emplace(k, v)`: an entry that is there stays. -/
def emplace (m : κ → Option β) (k : κ) (v : β) : κ → Option β :=
  if (m k).isSome then m else assign m k v

@[simp] theorem assign_self (m : κ → Option β) (k : κ) (v : β) : assign m k v k = some v :=
  Function.update_self ..

theorem assign_of_ne (m : κ → Option β) {k j : κ} (v : β) (h : j ≠ k) :
    assign m k v j = m j := Function.update_of_ne h ..

variable (key : γ → κ) (val : γ → β)

theorem foldl_assign (xs : List γ) (m : κ → Option β) (k : κ) :
    xs.foldl (fun m x => assign m (key x) (val x)) m k =
      ((lastWhere (fun x => key x == k) xs).map val).or (m k) := by
  induction xs using List.reverseRecOn with
  | nil => rfl
  | append_singleton xs x ih =>
    rw [List.foldl_append, lastWhere_snoc]
    change assign _ (key x) (val x) k = _
    by_cases h : key x = k
    · subst h
      simp
    · rw [assign_of_ne _ _ (Ne.symm h), ih]
      simp [h]

theorem foldl_emplace (xs : List γ) (m : κ → Option β) (k : κ) :
    xs.foldl (fun m x => emplace m (key x) (val x)) m k =
      (m k).or ((xs.find? (fun x => key x == k)).map val) := by
  induction xs generalizing m with
  | nil => simp
  | cons x xs ih =>
    rw [List.foldl_cons, ih, List.find?_cons, emplace]
    by_cases hx : key x = k
    · subst hx
      cases hm : m (key x) <;> simp [hm]
    · rw [beq_false_of_ne hx]
      split_ifs
      · rfl
      · rw [assign_of_ne _ _ (Ne.symm hx)]

end Store

end Lib.Keyed
