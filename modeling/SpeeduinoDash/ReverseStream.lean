import SpeeduinoDash.Lib.Alternation
import SpeeduinoDash.ReverseAgreement

set_option autoImplicit false

/-!
# The stream of the reverse callback

The callback is set before the first sample, so it is called with every change.
-/
namespace SpeeduinoDash.ReverseDetector
open Lib.Alternation Lib.Runs

def tell (d : ReverseDetector) (e : Event) : ReverseDetector × List ReverseChange :=
  ((d.react e).1, (d.react e).2.toList)

theorem changes_eq_emitted (d : ReverseDetector) (events : List Event) :
    changes d events = emitted tell d events := by
  induction events generalizing d with
  | nil => rfl
  | cons e events ih => exact congrArg ((d.react e).2.toList ++ ·) (ih (d.step e))

/-- A step that calls back has changed the state, and says to what and from which source. -/
theorem react_told (d : ReverseDetector) (e : Event) :
    ((d.react e).2 = none ∧ (d.step e).engaged = d.engaged ∧ (d.step e).source = d.source) ∨
    ((d.react e).2 = some ⟨(d.step e).engaged, (d.step e).source⟩ ∧
      (d.step e).engaged ≠ d.engaged) := by
  unfold step
  obtain ⟨x, source, -, h⟩ | ⟨-, h⟩ := react_cases d e
  · rw [h]
    obtain ⟨-, h⟩ | ⟨-, hdue, h⟩ | ⟨-, -, h⟩ := d.debounce_cases x.2 source e.now
    · rw [h]
      exact .inl ⟨rfl, rfl, rfl⟩
    · rw [h]
      exact .inr ⟨rfl, hdue.2⟩
    · rw [h]
      exact .inl ⟨rfl, rfl, rfl⟩
  · rw [h]
    exact .inl ⟨rfl, rfl, rfl⟩

theorem tells_engaged (d : ReverseDetector) (e : Event) :
    Tells tell isReverseEngaged (fun change => some change.engaged) d e := by
  change (d.react e).2.toList.filterMap _ =
    if (d.step e).engaged = d.engaged then [] else [(d.step e).engaged]
  rcases d.react_told e with ⟨hnone, hsame, -⟩ | ⟨hsome, hchanged⟩
  · rw [hnone, if_pos hsame]
    rfl
  · rw [hsome, if_neg hchanged]
    rfl

theorem source_next (d : ReverseDetector) (e : Event) : (next tell d e).getSource =
    ((tell d e).2.getLast?.map ReverseChange.source).getD d.getSource := by
  change (d.step e).source = ((d.react e).2.toList.getLast?.map _).getD d.source
  rcases d.react_told e with ⟨hnone, -, hsame⟩ | ⟨hsome, -⟩
  · rw [hnone, hsame]
    rfl
  · rw [hsome]
    rfl

/-- The callback hears an alternating stream that starts with reverse engaged, and after every
    event the detector answers with the last change heard. -/
theorem callback_stream (config : ReverseConfig) (initGpio : Bool) (start : ℕ)
    (events : List Event) :
    let d₀ := started config initGpio start
    Alternates true ((changes d₀ events).map ReverseChange.engaged) ∧
    ∀ seen, seen <+: events →
      (run step d₀ seen).isReverseEngaged =
        ((changes d₀ seen).map ReverseChange.engaged).getLast?.getD false ∧
      ∀ last, (changes d₀ seen).getLast? = some last →
        (run step d₀ seen).isReverseEngaged = last.engaged ∧
          (run step d₀ seen).getSource = last.source := by
  intro d₀
  have htells : ∀ seen, EveryStep (next tell)
      (Tells tell isReverseEngaged (fun change => some change.engaged)) d₀ seen :=
    fun seen pre e _ => tells_engaged (run (next tell) d₀ pre) e
  refine ⟨?_, ?_⟩
  · have halternates := alternates_emitted (htells events)
    rw [List.filterMap_eq_map'] at halternates
    rw [changes_eq_emitted]
    exact halternates
  · intro seen _
    have hengaged := value_run (htells seen)
    rw [List.filterMap_eq_map'] at hengaged
    rw [changes_eq_emitted]
    refine ⟨hengaged, ?_⟩
    intro last hlast
    have hsource := run_last tell getSource ReverseChange.source source_next d₀ seen
    rw [hlast] at hsource
    rw [List.getLast?_map, hlast] at hengaged
    exact ⟨hengaged, hsource⟩

end SpeeduinoDash.ReverseDetector
