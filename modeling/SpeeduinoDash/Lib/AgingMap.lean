import Mathlib.Data.Int.Order.Basic
import Mathlib.Data.List.Basic
import Mathlib.Data.List.Nodup
import Mathlib.Data.List.Perm.Subperm
import Mathlib.Tactic.SplitIfs

set_option autoImplicit false

/-!
# Maps whose entries age

An entry lives for some rounds from when its key was last touched. What is left after any rounds
is a window on the keys that were touched, the newest first.
-/
namespace Lib.AgingMap

variable {κ : Type*}

def keys (entries : List (κ × ℤ)) : List κ := entries.map Prod.fst

section Age

variable {k : κ} {v : ℤ} {entries : List (κ × ℤ)}

def age (entries : List (κ × ℤ)) : List (κ × ℤ) :=
  (entries.map fun entry => (entry.1, entry.2 - 1)).filter fun entry => decide (0 < entry.2)

theorem mem_age : (k, v) ∈ age entries ↔ (k, v + 1) ∈ entries ∧ 0 < v := by
  unfold age
  rw [List.mem_filter, decide_eq_true_iff]
  refine and_congr_left fun _ => ?_
  rw [List.mem_map]
  constructor
  · rintro ⟨⟨k', v'⟩, hmem, heq⟩
    obtain ⟨rfl, rfl⟩ := Prod.mk.inj heq
    rwa [Int.sub_add_cancel]
  · intro hmem
    exact ⟨(k, v + 1), hmem, by rw [Int.add_sub_cancel]⟩

theorem nodup_age (h : (keys entries).Nodup) : (keys (age entries)).Nodup := by
  have haged : keys (entries.map fun entry => (entry.1, entry.2 - 1)) = keys entries :=
    List.map_map
  rw [← haged] at h
  exact h.sublist (List.filter_sublist.map Prod.fst)

end Age

variable [DecidableEq κ]

def refresh (key : κ) (life : ℤ) (entries : List (κ × ℤ)) : List (κ × ℤ) :=
  if key ∈ keys entries then
    entries.map fun entry => if entry.1 = key then (key, life) else entry
  else entries ++ [(key, life)]

def touch (life : ℤ) (key : κ) (entries : List (κ × ℤ)) : List (κ × ℤ) :=
  age (refresh key life entries)

section Refresh

variable {key k : κ} {life v : ℤ} {entries : List (κ × ℤ)}

theorem mem_refresh :
    (k, v) ∈ refresh key life entries ↔ (k = key ∧ v = life) ∨ (k ≠ key ∧ (k, v) ∈ entries) := by
  unfold refresh
  split_ifs with hkey
  · obtain ⟨old, hold, rfl⟩ := List.mem_map.mp hkey
    rw [List.mem_map]
    constructor
    · rintro ⟨entry, hentry, heq⟩
      split_ifs at heq with hsame
      · exact .inl (Prod.mk.inj heq.symm)
      · subst heq
        exact .inr ⟨hsame, hentry⟩
    · rintro (⟨rfl, rfl⟩ | ⟨hother, hentry⟩)
      · exact ⟨old, hold, if_pos rfl⟩
      · exact ⟨(k, v), hentry, if_neg hother⟩
  · have hother : (k, v) ∈ entries → k ≠ key := by
      rintro hentry rfl
      exact hkey (List.mem_map_of_mem hentry)
    rw [List.mem_append, List.mem_singleton, Prod.mk.injEq, or_comm, and_iff_right_of_imp hother]

theorem keys_refresh :
    keys (refresh key life entries) =
      if key ∈ keys entries then keys entries else keys entries ++ [key] := by
  unfold refresh
  split_ifs with hkey
  · unfold keys
    rw [List.map_map]
    refine List.map_congr_left fun entry _ => ?_
    rw [Function.comp_apply]
    split_ifs with hsame
    · exact hsame.symm
    · rfl
  · exact List.map_append

theorem nodup_refresh (h : (keys entries).Nodup) : (keys (refresh key life entries)).Nodup := by
  rw [keys_refresh]
  split_ifs with hkey
  · exact h
  · rw [List.nodup_append_comm]
    exact List.nodup_cons.mpr ⟨hkey, h⟩

end Refresh

/-- The entries are the keys touched in the last rounds, each with the rounds it has left. -/
structure Window (life : ℤ) (touched : List κ) (entries : List (κ × ℤ)) : Prop where
  nodup : (keys entries).Nodup
  mem : ∀ k v, (k, v) ∈ entries ↔
    k ∈ touched ∧ (touched.idxOf k : ℤ) < life - 1 ∧ v = life - 1 - touched.idxOf k

section Rounds

variable {life : ℤ} {touched : List κ} {entries : List (κ × ℤ)}

theorem window_nil : Window life ([] : List κ) [] :=
  ⟨List.nodup_nil, by simp⟩

theorem Window.touch (hlife : 2 ≤ life) (h : Window life touched entries) (key : κ) :
    Window life (key :: touched) (touch life key entries) := by
  refine ⟨nodup_age (nodup_refresh h.nodup), fun k v => ?_⟩
  unfold AgingMap.touch
  rw [mem_age, mem_refresh, List.mem_cons]
  by_cases hsame : k = key
  · subst hsame
    rw [List.idxOf_cons_self]
    simp
    omega
  · rw [List.idxOf_cons_ne _ (Ne.symm hsame), h.mem]
    simp only [hsame, false_and, false_or, ne_eq, not_false_eq_true, true_and]
    refine and_assoc.trans (and_congr_right fun _ => ?_)
    omega

theorem Window.mem_take (h : Window life touched entries) {k : κ} {v : ℤ} :
    (k, v) ∈ entries ↔
      k ∈ touched.take (life - 1).toNat ∧ v = life - 1 - touched.idxOf k := by
  rw [h.mem, ← and_assoc]
  refine and_congr_left fun _ => ?_
  constructor
  · rintro ⟨hmem, hrecent⟩
    rw [List.mem_take_iff_idxOf_lt hmem]
    omega
  · intro hmem
    have htouched := List.mem_of_mem_take hmem
    rw [List.mem_take_iff_idxOf_lt htouched] at hmem
    exact ⟨htouched, by omega⟩

/-- Never more entries than rounds that an entry outlives. -/
theorem Window.length_le (h : Window life touched entries) :
    entries.length ≤ (life - 1).toNat := by
  have hsubset : keys entries ⊆ touched.take (life - 1).toNat := by
    intro k hk
    obtain ⟨⟨k', v⟩, hentry, rfl⟩ := List.mem_map.mp hk
    exact (h.mem_take.mp hentry).1
  calc
    entries.length = (keys entries).length := (List.length_map Prod.fst).symm
    _ ≤ (touched.take (life - 1).toNat).length := (h.nodup.subperm hsubset).length_le
    _ ≤ (life - 1).toNat := List.length_take_le _ _

end Rounds

end Lib.AgingMap
