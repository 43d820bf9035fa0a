import SpeeduinoDash.Lib.Runs

set_option autoImplicit false

/-!
# Snapshots

A component takes a new list of entries now and then, and tells what has arrived since the last
one. Entries are the same if their keys are.
-/
namespace Lib.Snapshots
open Lib.Runs

section Arrivals

variable {α κ : Type*} [DecidableEq κ] (key : α → κ)

def listed (k : κ) (xs : List α) : Bool := xs.any (fun x => key x = k)

def arrivals (old new : List α) : List α := new.filter (fun x => !listed key (key x) old)

theorem mem_arrivals {old new : List α} {x : α} :
    x ∈ arrivals key old new ↔ x ∈ new ∧ listed key (key x) old = false := by
  rw [arrivals, List.mem_filter, Bool.not_eq_true']

theorem listed_iff {k : κ} {xs : List α} : listed key k xs = true ↔ k ∈ xs.map key := by
  simp [listed]

theorem arrivals_nodup {old new : List α} (h : (new.map key).Nodup) :
    ((arrivals key old new).map key).Nodup :=
  h.sublist (List.Sublist.map key List.filter_sublist)

theorem listed_arrivals (old new : List α) (k : κ) :
    listed key k (arrivals key old new) = (listed key k new && !listed key k old) := by
  rw [Bool.eq_iff_iff, listed_iff, Bool.and_eq_true, Bool.not_eq_true', listed_iff]
  constructor
  · intro h
    obtain ⟨x, hx, rfl⟩ := List.mem_map.mp h
    obtain ⟨hnew, hold⟩ := (mem_arrivals key).mp hx
    exact ⟨List.mem_map_of_mem hnew, hold⟩
  · rintro ⟨hnew, hold⟩
    obtain ⟨x, hx, rfl⟩ := List.mem_map.mp hnew
    exact List.mem_map_of_mem ((mem_arrivals key).mpr ⟨hx, hold⟩)

theorem filterMap_key {β : Type*} (k : κ) (b : β) {xs : List α} (h : (xs.map key).Nodup) :
    xs.filterMap (fun x => if key x = k then some b else none) =
      if listed key k xs then [b] else [] := by
  induction xs with
  | nil => rfl
  | cons x xs ih =>
    rw [List.map_cons, List.nodup_cons] at h
    by_cases hx : key x = k
    · have hrest : listed key k xs = false := by
        rw [Bool.eq_false_iff, ne_eq, listed_iff, ← hx]
        exact h.1
      have hfirst : listed key k (x :: xs) = true := by simp [listed, hx]
      rw [List.filterMap_cons, if_pos hx, ih h.2, hrest, hfirst]
      rfl
    · have hsame : listed key k (x :: xs) = listed key k xs := by simp [listed, hx]
      rw [List.filterMap_cons, if_neg hx, ih h.2, hsame]

theorem map_modify_of_eq {β : Type*} {f : α → α} {g : α → β} (h : ∀ x, g (f x) = g x)
    (xs : List α) (i : ℕ) : (xs.modify i f).map g = xs.map g := by
  induction xs generalizing i with
  | nil => rw [List.modify_nil]
  | cons x xs ih =>
    cases i with
    | zero => exact congrArg (· :: xs.map g) (h x)
    | succ i => rw [List.modify_succ_cons, List.map_cons, ih, List.map_cons]

theorem lookup_isSome {β : Type*} (value : α → β) (k : κ) (xs : List α) :
    ((xs.map (fun x => (key x, value x))).lookup k).isSome = listed key k xs := by
  induction xs with
  | nil => rfl
  | cons x xs ih =>
    rw [listed, List.map_cons, List.lookup_cons, List.any_cons, ← listed, ← ih]
    by_cases h : key x = k
    · simp [h]
    · have hk : (k == key x) = false := beq_false_of_ne (Ne.symm h)
      simp [h, hk]

end Arrivals

theorem lookup_filterMap {κ β : Type*} [DecidableEq κ] (f : κ → Option β) (k : κ) (ks : List κ) :
    (ks.filterMap (fun i => (f i).map (fun b => (i, b)))).lookup k =
      if k ∈ ks then f k else none := by
  induction ks with
  | nil => rfl
  | cons i ks ih =>
    by_cases h : k = i
    · subst h
      cases hf : f k with
      | none => simp [ih, hf]
      | some b => simp [hf]
    · have hk : (k == i) = false := beq_false_of_ne h
      cases hf : f i with
      | none => simp [ih, hf, h]
      | some b => simp [List.lookup_cons, ih, hf, h, hk]

section Last

variable {σ ι α : Type*} (step : σ → ι → σ) (shows : σ → ι → Option α)

def lastShown : σ → List ι → Option α
  | _, [] => none
  | s, i :: ops => (lastShown (step s i) ops).or (shows s i)

theorem lastShown_snoc (s : σ) (ops : List ι) (i : ι) :
    lastShown step shows s (ops ++ [i]) =
      (shows (run step s ops) i).or (lastShown step shows s ops) := by
  induction ops generalizing s with
  | nil => simp [lastShown]
  | cons j ops ih => rw [List.cons_append, lastShown, ih, lastShown, run_cons, Option.or_assoc]

theorem lastShown_snoc_getD (s : σ) (ops : List ι) (i : ι) (a : α) :
    (lastShown step shows s (ops ++ [i])).getD a =
      (shows (run step s ops) i).getD ((lastShown step shows s ops).getD a) := by
  rw [lastShown_snoc]
  cases shows (run step s ops) i <;> rfl

end Last

end Lib.Snapshots
