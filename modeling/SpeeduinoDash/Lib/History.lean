import Mathlib.Order.Basic
import Mathlib.Order.Nat
import Mathlib.Tactic.SplitIfs

set_option autoImplicit false

/-!
# A history of bounded length

The newest entry comes first, and the oldest goes where there are more than a given number.
-/
namespace Lib.History

variable {α : Type*} (n : ℕ)

def push (x : α) (history : List α) : List α :=
  let longer := x :: history
  if n < longer.length then longer.dropLast else longer

theorem push_take (x : α) (entries : List α) :
    push n x (entries.take n) = (x :: entries).take n := by
  unfold push
  dsimp only
  split_ifs with hmore
  · have hlength : (entries.take n).length = n := by
      rw [List.length_cons, List.length_take] at hmore
      rw [List.length_take]
      omega
    rw [List.dropLast_eq_take, List.length_cons, hlength, Nat.add_sub_cancel]
    cases n with
    | zero => rfl
    | succ n =>
      rw [List.take_succ_cons, List.take_succ_cons, List.take_take,
        Nat.min_eq_left (Nat.le_succ n)]
  · rw [List.length_cons, List.length_take] at hmore
    have hall : entries.length < n := by omega
    rw [List.take_of_length_le (Nat.le_of_lt hall), List.take_of_length_le]
    rw [List.length_cons]
    omega

theorem foldl_push (new entries : List α) :
    new.foldl (fun history x => push n x history) (entries.take n) =
      (new.reverse ++ entries).take n := by
  induction new generalizing entries with
  | nil => rfl
  | cons x new ih =>
    rw [List.foldl_cons, push_take, ih, List.reverse_cons, List.append_assoc]
    rfl

section Mem

variable {n} {x y : α} {history : List α}

theorem mem_of_mem_push (h : y ∈ push n x history) : y = x ∨ y ∈ history := by
  apply List.mem_cons.mp
  unfold push at h
  dsimp only at h
  split_ifs at h with hmore
  · exact List.dropLast_subset _ h
  · exact h

theorem mem_push_self (h : 0 < n ∨ history ≠ []) : x ∈ push n x history := by
  cases history with
  | nil =>
    have hroom : 1 ≤ n := h.resolve_right fun hne => hne rfl
    change x ∈ if n < 1 then _ else [x]
    rw [if_neg (not_lt.mpr hroom)]
    exact List.mem_cons_self
  | cons newest rest =>
    unfold push
    dsimp only
    split_ifs with hmore
    · exact List.mem_cons_self
    · exact List.mem_cons_self

theorem push_zero_nil : push 0 x [] = [] := rfl

theorem forall_mem_push_iff {p : α → Prop} (h : ∀ y ∈ history, p y) :
    (∀ y ∈ push n x history, p y) ↔ (0 < n ∨ history ≠ [] → p x) := by
  constructor
  · intro hall hkept
    exact hall x (mem_push_self hkept)
  · intro hnew y hy
    rcases mem_of_mem_push hy with rfl | hold
    · by_cases hkept : 0 < n ∨ history ≠ []
      · exact hnew hkept
      · obtain ⟨hzero, hnone⟩ := not_or.mp hkept
        rw [Nat.eq_zero_of_not_pos hzero, not_not.mp hnone, push_zero_nil] at hy
        cases hy
    · exact h y hold

end Mem

end Lib.History
