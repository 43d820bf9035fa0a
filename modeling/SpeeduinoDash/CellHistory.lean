import SpeeduinoDash.Lib.Runs
import SpeeduinoDash.VEMapDisplay

set_option autoImplicit false

/-!
# The history of the map

The trace keeps the cells that were current after each call of `updateCurrentCell`, the newest
first.
-/
namespace SpeeduinoDash
open Lib.AgingMap Lib.Runs

theorem toList_key (cell : Cell) :
    cell.key.toList = Nat.toDigits 10 cell.rpmIdx ++ ',' :: Nat.toDigits 10 cell.loadIdx := by
  simp [Cell.key]

theorem comma_notMem_toDigits (n : ℕ) : ',' ∉ Nat.toDigits 10 n := by
  intro hcomma
  have hdigit := Nat.isDigit_of_mem_toDigits (by decide) (by decide) hcomma
  revert hdigit
  decide

/-- The comma tells where the first index ends. -/
theorem key_injective : Function.Injective Cell.key := by
  rintro ⟨rpmIdx, loadIdx⟩ ⟨rpmIdx', loadIdx'⟩ h
  have htexts := congrArg String.toList h
  rw [toList_key, toList_key, List.append_cons_inj_of_notMem (comma_notMem_toDigits _)
    (comma_notMem_toDigits _)] at htexts
  obtain ⟨hrpm, -, hload⟩ := htexts
  have hrpm' := congrArg (Nat.ofDigitChars 10 · 0) hrpm
  have hload' := congrArg (Nat.ofDigitChars 10 · 0) hload
  simp only [Nat.ofDigitChars_ten_toDigits] at hrpm' hload'
  rw [hrpm', hload']

namespace VEMapDisplay

inductive Op where
  | rpm (rpm : ℚ)
  | mapKpa (mapKpa : ℚ)
  | tps (tps : ℚ)
  | mapType (mapType : MapType)
  | rpmBins (bins : List ℚ)
  | loadBins (bins : List ℚ)
  /-- The timer of the display. -/
  | updateCurrentCell

def step (s : VEMapDisplay) : Op → VEMapDisplay
  | .rpm rpm => { s with rpm := rpm }
  | .mapKpa mapKpa => { s with mapKpa := mapKpa }
  | .tps tps => { s with tps := tps }
  | .mapType mapType => { s with mapType := mapType }
  | .rpmBins bins => { s with rpmBins := bins }
  | .loadBins bins => { s with loadBins := bins }
  | .updateCurrentCell => s.updateCurrentCell

structure VisitTrace where
  display : VEMapDisplay
  visited : List Cell := []

namespace VisitTrace

def step (t : VisitTrace) (op : Op) : VisitTrace where
  display := t.display.step op
  visited :=
    match op with
    | .updateCurrentCell => t.display.updateCurrentCell.current :: t.visited
    | _ => t.visited

structure Coherent (t : VisitTrace) (life : ℤ) : Prop where
  fixed : t.display.maxHistoryAge = life
  window : Window life (t.visited.map Cell.key) t.display.cellHistory

theorem coherent_step {life : ℤ} (hlife : 2 ≤ life) (t : VisitTrace) (op : Op)
    (h : t.Coherent life) : (t.step op).Coherent life := by
  obtain ⟨rfl, hwindow⟩ := h
  cases op with
  | updateCurrentCell => exact ⟨rfl, hwindow.touch hlife t.display.found.key⟩
  | _ => exact ⟨rfl, hwindow⟩

/-- The history has the cells that were current in one of the last calls, and nothing else. -/
structure ExactHistory (t : VisitTrace) : Prop where
  cells : ∀ (cell : Cell) (value : ℤ), (cell.key, value) ∈ t.display.cellHistory ↔
    cell ∈ t.visited.take (t.display.maxHistoryAge - 1).toNat ∧
      value = t.display.maxHistoryAge - 1 - t.visited.idxOf cell
  named : ∀ entry ∈ t.display.cellHistory, ∃ cell : Cell, entry.1 = cell.key
  nodup : (keys t.display.cellHistory).Nodup
  length : t.display.cellHistory.length ≤ (t.display.maxHistoryAge - 1).toNat

theorem idxOf_map_key (visited : List Cell) (cell : Cell) :
    (visited.map Cell.key).idxOf cell.key = visited.idxOf cell := by
  induction visited with
  | nil => rfl
  | cons newest visited ih =>
    rw [List.map_cons]
    by_cases hsame : newest = cell
    · rw [hsame, List.idxOf_cons_self, List.idxOf_cons_self]
    · rw [List.idxOf_cons_ne _ hsame, List.idxOf_cons_ne _ (key_injective.ne hsame), ih]

theorem Coherent.exactHistory {t : VisitTrace} {life : ℤ} (h : t.Coherent life) :
    t.ExactHistory := by
  obtain ⟨rfl, hwindow⟩ := h
  refine ⟨fun cell value => ?_, ?_, hwindow.nodup, hwindow.length_le⟩
  · rw [hwindow.mem_take, idxOf_map_key, ← List.map_take, List.mem_map_of_injective key_injective]
  · rintro ⟨key, value⟩ hentry
    have htouched := List.mem_of_mem_take (hwindow.mem_take.mp hentry).1
    obtain ⟨cell, -, hkey⟩ := List.mem_map.mp htouched
    exact ⟨cell, hkey.symm⟩

theorem history_is_window (s : VEMapDisplay) (hage : 2 ≤ s.maxHistoryAge)
    (hempty : s.cellHistory = []) (ops : List Op) :
    (run step { display := s } ops).ExactHistory := by
  have hstart : Coherent { display := s } s.maxHistoryAge := by
    refine ⟨rfl, ?_⟩
    rw [hempty]
    exact window_nil
  exact (run_invariant step (Coherent · s.maxHistoryAge) (coherent_step hage) hstart
    ops).exactHistory

theorem history_is_window_three :
    (run step { display := { maxHistoryAge := 3 } }
      [.rpm 800, .updateCurrentCell, .updateCurrentCell, .rpm 1200, .updateCurrentCell,
        .mapKpa 35, .updateCurrentCell]).ExactHistory :=
  history_is_window { maxHistoryAge := 3 } (by decide) rfl _

end VisitTrace

end VEMapDisplay

end SpeeduinoDash
