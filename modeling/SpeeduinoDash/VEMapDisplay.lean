import Mathlib.Data.Nat.Find
import Mathlib.Data.Rat.Floor
import Mathlib.Order.Bounds.Basic
import SpeeduinoDash.Lib.AgingMap

set_option autoImplicit false

/-!
# The current cell of the map

The history is kept as JavaScript keeps it, under a text for each cell.
-/
namespace SpeeduinoDash
open Lib.AgingMap

/-- The maps that the display knows, with `"VE"` as the only one over manifold pressure. -/
inductive MapType where
  | ve
  | advance
  | afr
deriving DecidableEq

/-- `currentRpmIdx` and `currentLoadIdx`. -/
structure Cell where
  rpmIdx : ℕ
  loadIdx : ℕ
deriving DecidableEq

structure VEMapDisplay where
  rpm : ℚ := 0
  mapKpa : ℚ := 0
  tps : ℚ := 0
  mapType : MapType := .ve
  rpmBins : List ℚ := [500, 700, 1000, 1500, 2000, 2500, 3000, 3500, 4000, 4500, 5000, 5500, 6000,
    6500, 7000, 7500]
  loadBins : List ℚ := [20, 30, 40, 50, 60, 70, 80, 90, 100, 110, 120, 130, 140, 150, 160, 170]
  current : Cell := ⟨0, 0⟩
  cellHistory : List (String × ℤ) := []
  maxHistoryAge : ℤ := 50
  /-- The cells that `cellChanged` told of. -/
  changes : List Cell := []

def lookup (bins : List ℚ) (value : ℚ) : ℕ :=
  (List.range (bins.length - 1)).foldl
    (fun idx i => if (bins[i]?).any (· ≤ value) then i else idx) 0

def Cell.key (cell : Cell) : String := toString cell.rpmIdx ++ "," ++ toString cell.loadIdx

namespace VEMapDisplay

def load (s : VEMapDisplay) : ℚ := if s.mapType = .ve then s.mapKpa else s.tps

def found (s : VEMapDisplay) : Cell := ⟨lookup s.rpmBins s.rpm, lookup s.loadBins s.load⟩

def updateCurrentCell (s : VEMapDisplay) : VEMapDisplay :=
  { s with
    current := s.found
    cellHistory := touch s.maxHistoryAge s.found.key s.cellHistory
    changes := if s.current ≠ s.found then s.changes ++ [s.found] else s.changes }

section Lookup

variable {bins : List ℚ} {value : ℚ}

def reached (bins : List ℚ) (value : ℚ) : Set ℕ := {i | (bins[i]?).any (· ≤ value) = true}

def IsLookup (bins : List ℚ) (value : ℚ) (idx : ℕ) : Prop :=
  IsGreatest (reached bins value) idx ∨ reached bins value = ∅ ∧ idx = 0

theorem mem_reached {i : ℕ} : i ∈ reached bins value ↔ ∃ bin, bins[i]? = some bin ∧ bin ≤ value := by
  unfold reached
  rw [Set.mem_ofPred_eq, Option.any_eq_true]
  simp only [decide_eq_true_eq]

theorem lt_length_of_mem_reached {i : ℕ} (h : i ∈ reached bins value) : i < bins.length := by
  obtain ⟨bin, hbin, -⟩ := mem_reached.mp h
  exact (List.getElem?_eq_some_iff.mp hbin).1

theorem foldl_range_eq_findGreatest (p : ℕ → Bool) (n : ℕ) :
    (List.range (n + 1)).foldl (fun idx i => if p i then i else idx) 0 =
      Nat.findGreatest (fun i => p i = true) n := by
  induction n with
  | zero => simp
  | succ n ih =>
    rw [List.range_succ, List.foldl_append, ih, Nat.findGreatest_succ]
    rfl

theorem lookup_eq_findGreatest {n : ℕ} (h : bins.length = n + 2) (value : ℚ) :
    lookup bins value = Nat.findGreatest (fun i => (bins[i]?).any (· ≤ value) = true) n := by
  unfold lookup
  rw [h]
  exact foldl_range_eq_findGreatest (fun i => (bins[i]?).any (· ≤ value)) n

theorem lookup_of_length_le_one (h : bins.length ≤ 1) : lookup bins value = 0 := by
  unfold lookup
  rw [Nat.sub_eq_zero_of_le h]
  rfl

theorem isLookup_zero (h : bins.length ≤ 1) : IsLookup bins value 0 := by
  by_cases hfirst : 0 ∈ reached bins value
  · refine .inl ⟨hfirst, fun i hi => ?_⟩
    have hlt := lt_length_of_mem_reached hi
    omega
  · refine .inr ⟨Set.eq_empty_of_forall_notMem fun i hi => hfirst ?_, rfl⟩
    have hlt := lt_length_of_mem_reached hi
    obtain rfl : i = 0 := by omega
    exact hi

/-- With two bins or more the lookup is right below the last bin, and only there. -/
theorem isLookup_lookup {n : ℕ} (h : bins.length = n + 2) :
    IsLookup bins value (lookup bins value) ↔ n + 1 ∉ reached bins value := by
  rw [lookup_eq_findGreatest h]
  constructor
  · rintro (⟨-, hgreatest⟩ | ⟨hempty, -⟩) hlast
    · have hle := Nat.findGreatest_le (P := fun i => (bins[i]?).any (· ≤ value) = true) n
      exact absurd (hgreatest hlast) (by omega)
    · rw [hempty] at hlast
      exact hlast
  · intro hlast
    have hbelow : ∀ i ∈ reached bins value, i ≤ n := by
      intro i hi
      have hlt := lt_length_of_mem_reached hi
      have hne : i ≠ n + 1 := fun heq => hlast (heq ▸ hi)
      omega
    rcases Set.eq_empty_or_nonempty (reached bins value) with hempty | ⟨i, hi⟩
    · refine .inr ⟨hempty, Nat.findGreatest_eq_zero_iff.mpr fun i _ _ hi => ?_⟩
      exact Set.notMem_empty i (hempty ▸ hi)
    · refine .inl ⟨Nat.findGreatest_spec (hbelow i hi) hi, fun j hj => ?_⟩
      exact Nat.le_findGreatest (hbelow j hj) hj

end Lookup

/-- There is one bin at most, or the value is below the last one. -/
def BelowLast (bins : List ℚ) (value : ℚ) : Prop :=
  bins.length ≤ 1 ∨ ∀ last ∈ bins.getLast?, value < last

theorem isLookup_iff (bins : List ℚ) (value : ℚ) :
    IsLookup bins value (lookup bins value) ↔ BelowLast bins value := by
  unfold BelowLast
  by_cases hshort : bins.length ≤ 1
  · rw [lookup_of_length_le_one hshort]
    exact iff_of_true (isLookup_zero hshort) (.inl hshort)
  · obtain ⟨n, hlength⟩ : ∃ n, bins.length = n + 2 := ⟨bins.length - 2, by omega⟩
    rw [isLookup_lookup hlength, or_iff_right hshort, List.getLast?_eq_getElem?, hlength,
      mem_reached]
    push Not
    rfl

/-- The cell is the right one exactly where each value is below the last bin, or there is one bin
    at most. -/
theorem current_cell_iff (s : VEMapDisplay) :
    (IsLookup s.rpmBins s.rpm s.updateCurrentCell.current.rpmIdx ∧
        IsLookup s.loadBins s.load s.updateCurrentCell.current.loadIdx) ↔
      BelowLast s.rpmBins s.rpm ∧ BelowLast s.loadBins s.load :=
  and_congr (isLookup_iff s.rpmBins s.rpm) (isLookup_iff s.loadBins s.load)

/-- At 8000 rpm the cell is that of 7000 rpm, though the last bin is 7500. -/
theorem last_bin_missed :
    ¬ ∀ s : VEMapDisplay, s.rpmBins.Pairwise (· < ·) → s.loadBins.Pairwise (· < ·) →
      IsLookup s.rpmBins s.rpm s.updateCurrentCell.current.rpmIdx ∧
        IsLookup s.loadBins s.load s.updateCurrentCell.current.loadIdx := by
  intro h
  have hcell := h { rpm := 8000 } (by decide +kernel) (by decide +kernel)
  have hbelow := (isLookup_iff _ _).mp hcell.1
  revert hbelow
  unfold BelowLast
  decide +kernel

end VEMapDisplay

end SpeeduinoDash
