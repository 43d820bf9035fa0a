import Mathlib.Data.Int.Notation
import Mathlib.Logic.Function.Basic
import Mathlib.Tactic.SplitIfs
import SpeeduinoDash.Lib.Runs

set_option autoImplicit false

/-!
# Debouncing on the leading edge

Of the events of one key the first is let through; after that an event is let through unless it
comes less than `window` after the last one that was. Events that do not count may be let through
too, and then keep away later ones that do.
-/
namespace Lib.LeadingEdge
open Lib.Runs

variable {α κ : Type*} [DecidableEq κ] (key : α → κ) (time : α → ℤ) (window : ℤ)

def admits (last : Option α) (e : α) : Bool :=
  match last with
  | none => true
  | some a => decide (window ≤ time e - time a)

def stamp (last : κ → Option α) (e : α) : κ → Option α :=
  if admits time window (last (key e)) e then Function.update last (key e) (some e) else last

def lastAdmitted (events : List α) : κ → Option α :=
  run (stamp key time window) (fun _ => none) events

def admitted (events : List α) (e : α) : Bool :=
  admits time window (lastAdmitted key time window events (key e)) e

section Last

variable {key time window}

theorem admitted_of_none {events : List α} {e : α}
    (h : lastAdmitted key time window events (key e) = none) :
    admitted key time window events e = true := by
  rw [admitted, h]
  rfl

theorem admitted_iff {events : List α} {e a : α}
    (h : lastAdmitted key time window events (key e) = some a) :
    admitted key time window events e = true ↔ window ≤ time e - time a := by
  rw [admitted, h]
  exact decide_eq_true_iff

theorem lastAdmitted_snoc (events : List α) (e : α) :
    lastAdmitted key time window (events ++ [e]) =
      if admitted key time window events e then
        Function.update (lastAdmitted key time window events) (key e) (some e)
      else lastAdmitted key time window events := by
  rw [lastAdmitted, run_snoc]
  rfl

theorem lastAdmitted_snoc_self {events : List α} {e : α}
    (h : admitted key time window events e = true) :
    lastAdmitted key time window (events ++ [e]) (key e) = some e := by
  rw [lastAdmitted_snoc, if_pos h, Function.update_self]

theorem lastAdmitted_snoc_other {events : List α} {e : α} {k : κ}
    (h : admitted key time window events e = false ∨ key e ≠ k) :
    lastAdmitted key time window (events ++ [e]) k = lastAdmitted key time window events k := by
  rw [lastAdmitted_snoc]
  split_ifs with hadmitted
  · have hkey : k ≠ key e := by
      rcases h with h | h
      · rw [h] at hadmitted
        cases hadmitted
      · exact h.symm
    rw [Function.update_of_ne hkey]
  · rfl

variable (key time window) in
/-- The step a new event makes, for one key. -/
theorem lastAdmitted_cases (events : List α) (e : α) (k : κ) :
    (admitted key time window events e = true ∧ key e = k ∧
      lastAdmitted key time window (events ++ [e]) k = some e) ∨
    lastAdmitted key time window (events ++ [e]) k = lastAdmitted key time window events k := by
  cases hadmitted : admitted key time window events e with
  | false => exact .inr (lastAdmitted_snoc_other (.inl hadmitted))
  | true =>
    by_cases hkey : key e = k
    · subst hkey
      exact .inl ⟨rfl, rfl, lastAdmitted_snoc_self hadmitted⟩
    · exact .inr (lastAdmitted_snoc_other (.inr hkey))

theorem exists_admitted {events : List α} {k : κ} {a : α}
    (h : lastAdmitted key time window events k = some a) :
    key a = k ∧ ∃ pre, pre ++ [a] <+: events ∧ admitted key time window pre a = true := by
  induction events using List.reverseRecOn with
  | nil => cases h
  | append_singleton events e ih =>
    obtain ⟨hadmitted, hkey, hlast⟩ | hlast := lastAdmitted_cases key time window events e k
    · obtain rfl : e = a := Option.some.inj (hlast.symm.trans h)
      exact ⟨hkey, events, List.prefix_refl _, hadmitted⟩
    · obtain ⟨hkey, pre, hpre, hadmitted⟩ := ih (hlast.symm.trans h)
      exact ⟨hkey, pre, hpre.trans (List.prefix_append _ _), hadmitted⟩

end Last

section Spacing

def Ordered (events : List α) : Prop := events.Pairwise (fun a b => time a ≤ time b)

variable {key time window}

/-- After an event was let through, the last one of its key is that event itself or comes at
    least `window` later. -/
theorem spaced {events : List α} (hordered : Ordered time events) {pre : List α} {e : α}
    (hpre : pre ++ [e] <+: events) (he : admitted key time window pre e = true) :
    ∃ a, lastAdmitted key time window events (key e) = some a ∧ time e ≤ time a ∧
      (a = e ∨ window ≤ time a - time e) := by
  induction events using List.reverseRecOn with
  | nil => simp at hpre
  | append_singleton events x ih =>
    obtain ⟨hbefore, -, hlater⟩ := List.pairwise_append.mp hordered
    rcases List.prefix_concat_iff.mp hpre with heq | hpre
    · obtain ⟨rfl, hx⟩ := List.append_inj' heq rfl
      obtain rfl : e = x := List.singleton_inj.mp hx
      exact ⟨e, lastAdmitted_snoc_self he, Int.le_refl _, .inl rfl⟩
    · obtain ⟨a, hlast, hle, hspace⟩ := ih hbefore hpre
      obtain ⟨hadmitted, hkey, hnext⟩ | hnext :=
        lastAdmitted_cases key time window events x (key e)
      · obtain ⟨-, pre', hpre', -⟩ := exists_admitted hlast
        have hax : time a ≤ time x :=
          hlater a (hpre'.subset (List.mem_append_right _ List.mem_cons_self)) x List.mem_cons_self
        have hgap : window ≤ time x - time a := by
          rw [← hkey] at hlast
          exact (admitted_iff hlast).mp hadmitted
        exact ⟨x, hnext, by omega, .inr (by omega)⟩
      · exact ⟨a, hnext.trans hlast, hle, hspace⟩

variable (key window) in
/-- An event is let through, or comes less than `window` after one that was and that counts,
    exactly where no event that does not count keeps it away. -/
theorem covered_iff (counts : α → Prop) {events : List α} {e : α}
    (hordered : Ordered time (events ++ [e])) :
    (admitted key time window events e = true ∨
      ∃ pre e', pre ++ [e'] <+: events ∧ key e' = key e ∧
        admitted key time window pre e' = true ∧ counts e' ∧ time e - time e' < window) ↔
      ∀ a, lastAdmitted key time window events (key e) = some a → time e - time a < window →
        counts a := by
  obtain ⟨hbefore, -, hlater⟩ := List.pairwise_append.mp hordered
  constructor
  · intro hcovered a hlast hnear
    rcases hcovered with hadmitted | ⟨pre, e', hpre, hkey, hadmitted, hcounts, hnear'⟩
    · have := (admitted_iff hlast).mp hadmitted
      omega
    · obtain ⟨a', hlast', hle, hspace⟩ := spaced hbefore hpre hadmitted
      rw [hkey, hlast] at hlast'
      obtain rfl : a = a' := Option.some.inj hlast'
      rcases hspace with rfl | hspace
      · exact hcounts
      · obtain ⟨-, pre', hpre', -⟩ := exists_admitted hlast
        have hae : time a ≤ time e :=
          hlater a (hpre'.subset (List.mem_append_right _ List.mem_cons_self)) e List.mem_cons_self
        omega
  · intro hcounts
    cases hlast : lastAdmitted key time window events (key e) with
    | none => exact .inl (admitted_of_none hlast)
    | some a =>
      by_cases hnear : time e - time a < window
      · obtain ⟨hkey, pre, hpre, hadmitted⟩ := exists_admitted hlast
        exact .inr ⟨pre, a, hpre, hkey, hadmitted, hcounts a hlast hnear, hnear⟩
      · exact .inl ((admitted_iff hlast).mpr (by omega))

end Spacing

end Lib.LeadingEdge
