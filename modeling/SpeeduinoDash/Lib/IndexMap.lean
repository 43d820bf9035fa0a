import Mathlib.Data.List.Basic
import Mathlib.Data.Nat.Notation
import Mathlib.Logic.Function.Basic

set_option autoImplicit false

/-!
# A map from keys to the places of a list

Items are appended to a list, and a map keeps for every key the place of the last item that has it.
-/
namespace Lib.IndexMap

variable {α κ : Type*} (key : α → κ)

/-- The map leads to an item with the key, and has the keys of all items. -/
structure Indexes (map : κ → Option ℕ) (items : List α) : Prop where
  leads : ∀ k i, map k = some i → ∃ x, items[i]? = some x ∧ key x = k
  covers : ∀ x ∈ items, map (key x) ≠ none

theorem indexes_nil : Indexes key (fun _ => none) [] :=
  ⟨nofun, nofun⟩

variable {key} {map : κ → Option ℕ} {items : List α}

theorem Indexes.ne_none_iff (h : Indexes key map items) (k : κ) :
    map k ≠ none ↔ ∃ x ∈ items, key x = k := by
  constructor
  · intro hsome
    obtain ⟨i, hi⟩ := Option.ne_none_iff_exists'.mp hsome
    obtain ⟨x, hx, hkey⟩ := h.leads k i hi
    exact ⟨x, List.mem_of_getElem? hx, hkey⟩
  · rintro ⟨x, hx, rfl⟩
    exact h.covers x hx

variable [DecidableEq κ]

theorem Indexes.push (h : Indexes key map items) (x : α) :
    Indexes key (Function.update map (key x) (some items.length)) (items ++ [x]) := by
  constructor
  · intro k i hi
    by_cases hk : k = key x
    · rw [hk, Function.update_self] at hi
      obtain rfl := Option.some.inj hi
      exact ⟨x, List.getElem?_concat_length, hk.symm⟩
    · rw [Function.update_of_ne hk] at hi
      obtain ⟨x', hx', hkey⟩ := h.leads k i hi
      obtain ⟨hlt, -⟩ := List.getElem?_eq_some_iff.mp hx'
      exact ⟨x', by rw [List.getElem?_append_left hlt, hx'], hkey⟩
  · intro x' hx'
    by_cases hk : key x' = key x
    · rw [hk, Function.update_self]
      exact nofun
    · rw [Function.update_of_ne hk]
      rcases List.mem_append.mp hx' with hold | hnew
      · exact h.covers x' hold
      · exact absurd (congrArg key (List.mem_singleton.mp hnew)) hk

end Lib.IndexMap
