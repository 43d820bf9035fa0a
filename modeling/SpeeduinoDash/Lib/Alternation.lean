import Mathlib.Data.Bool.Basic
import SpeeduinoDash.Lib.Runs

set_option autoImplicit false

/-!
# A flag told by its changes

A component whose steps tell listeners what changed. If each step tells the new value of a flag
when it differs from the old one, and nothing else of the flag, then what is told alternates and
its last word is the flag.
-/
namespace Lib.Alternation
open Lib.Runs

/-- The values alternate, the first is `next`. -/
def Alternates : Bool → List Bool → Prop
  | _, [] => True
  | next, b :: bs => b = next ∧ Alternates (!next) bs

theorem Alternates.snoc {next b : Bool} {bs : List Bool} (h : Alternates next (bs ++ [b])) :
    b = !bs.getLast?.getD (!next) := by
  induction bs generalizing next with
  | nil => exact h.1.trans (Bool.not_not next).symm
  | cons c bs ih =>
    obtain ⟨hc, hrest⟩ := h
    rw [ih hrest, Bool.not_not, List.getLast?_cons, Option.getD_some, hc]

section Emitted

variable {σ ε α : Type*} (react : σ → ε → σ × List α)

def next (s : σ) (e : ε) : σ := (react s e).1

def emitted : σ → List ε → List α
  | _, [] => []
  | s, e :: es => (react s e).2 ++ emitted (next react s e) es

theorem emitted_append (s : σ) (xs ys : List ε) :
    emitted react s (xs ++ ys) = emitted react s xs ++ emitted react (run (next react) s xs) ys := by
  induction xs generalizing s with
  | nil => rfl
  | cons e xs ih => rw [List.cons_append, emitted, ih, emitted, List.append_assoc, run_cons]

theorem emitted_snoc (s : σ) (es : List ε) (e : ε) :
    emitted react s (es ++ [e]) = emitted react s es ++ (react (run (next react) s es) e).2 := by
  rw [emitted_append, emitted, emitted, List.append_nil]

/-- What every step that tells anything sets is what was told last. -/
theorem run_last {β : Type*} (f : σ → β) (g : α → β)
    (h : ∀ s e, f (next react s e) = ((react s e).2.getLast?.map g).getD (f s)) (s : σ)
    (es : List ε) :
    f (run (next react) s es) = ((emitted react s es).getLast?.map g).getD (f s) := by
  induction es using List.reverseRecOn with
  | nil => rfl
  | append_singleton es e ih =>
    rw [run_snoc, h, ih, emitted_snoc, List.getLast?_append]
    cases (react (run (next react) s es) e).2.getLast? <;> rfl

variable (value : σ → Bool) (about : α → Option Bool)

/-- A step tells the flag exactly when it changes it. -/
def Tells (s : σ) (e : ε) : Prop :=
  (react s e).2.filterMap about =
    if value (next react s e) = value s then [] else [value (next react s e)]

variable {react value about} {s : σ} {es : List ε}

theorem tells_of_quiet {e : ε} (hquiet : (react s e).2 = [])
    (hsame : value (next react s e) = value s) : Tells react value about s e := by
  rw [Tells, hquiet, if_pos hsame]
  rfl

theorem alternates_emitted (h : EveryStep (next react) (Tells react value about) s es) :
    Alternates (!value s) ((emitted react s es).filterMap about) := by
  induction es generalizing s with
  | nil => trivial
  | cons e es ih =>
    obtain ⟨hfirst, hrest⟩ := everyStep_cons.mp h
    rw [emitted, List.filterMap_append, hfirst]
    have hlater := ih hrest
    by_cases hsame : value (next react s e) = value s
    · rw [if_pos hsame, List.nil_append, ← hsame]
      exact hlater
    · rw [if_neg hsame, List.singleton_append]
      have hflip : value (next react s e) = !value s := Bool.eq_not.mpr hsame
      exact ⟨hflip, by rw [← hflip]; exact hlater⟩

theorem value_run (h : EveryStep (next react) (Tells react value about) s es) :
    value (run (next react) s es) =
      ((emitted react s es).filterMap about).getLast?.getD (value s) := by
  induction es generalizing s with
  | nil => rfl
  | cons e es ih =>
    obtain ⟨hfirst, hrest⟩ := everyStep_cons.mp h
    rw [run_cons, ih hrest, emitted, List.filterMap_append, hfirst, List.getLast?_append]
    by_cases hsame : value (next react s e) = value s
    · rw [if_pos hsame, hsame]
      cases ((emitted react (next react s e) es).filterMap about).getLast? <;> rfl
    · rw [if_neg hsame]
      cases ((emitted react (next react s e) es).filterMap about).getLast? <;> rfl

end Emitted

end Lib.Alternation
