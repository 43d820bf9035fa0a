import Mathlib.Logic.Function.Basic
import Mathlib.Tactic.SplitIfs
import SpeeduinoDash.Lib.Runs

set_option autoImplicit false

/-!
# Records filled by a journal

A record has settings, which an entry of the journal overwrites, and lists, to which one appends.
After a journal a setting holds what was written last, and a list everything appended to it.
-/
namespace Lib.Journal
open Lib.Runs

inductive Entry {F L : Type*} (V : F → Type*) (E : L → Type*) where
  | set (f : F) (v : V f)
  | append (l : L) (e : E l)

section Entries

variable {F L : Type*} {V : F → Type*} {E : L → Type*}

section Settings

variable [DecidableEq F]

def Entry.written (f : F) : Entry V E → Option (V f)
  | .set g v => if h : g = f then some (h ▸ v) else none
  | .append _ _ => none

def lastWritten (f : F) (entries : List (Entry V E)) : Option (V f) :=
  (entries.filterMap (Entry.written f)).getLast?

theorem lastWritten_eq_none {f : F} {entries : List (Entry V E)}
    (h : ∀ e ∈ entries, e.written f = none) : lastWritten f entries = none := by
  rw [lastWritten, List.filterMap_eq_nil_iff.mpr h]
  rfl

theorem lastWritten_append (f : F) (xs ys : List (Entry V E)) :
    lastWritten f (xs ++ ys) = (lastWritten f ys).or (lastWritten f xs) := by
  rw [lastWritten, List.filterMap_append, List.getLast?_append]
  rfl

theorem lastWritten_singleton (f : F) (e : Entry V E) : lastWritten f [e] = e.written f := by
  unfold lastWritten
  cases h : e.written f <;> simp [h]

end Settings

section Lists

variable [DecidableEq L]

def Entry.appended (l : L) : Entry V E → Option (E l)
  | .set _ _ => none
  | .append k e => if h : k = l then some (h ▸ e) else none

def allAppended (l : L) (entries : List (Entry V E)) : List (E l) :=
  entries.filterMap (Entry.appended l)

theorem allAppended_eq_nil {l : L} {entries : List (Entry V E)}
    (h : ∀ e ∈ entries, e.appended l = none) : allAppended l entries = [] :=
  List.filterMap_eq_nil_iff.mpr h

theorem allAppended_append (l : L) (xs ys : List (Entry V E)) :
    allAppended l (xs ++ ys) = allAppended l xs ++ allAppended l ys := List.filterMap_append

theorem allAppended_singleton (l : L) (e : Entry V E) :
    allAppended l [e] = (e.appended l).toList := by
  unfold allAppended
  cases h : e.appended l <;> simp [h]

end Lists

end Entries

structure Ledger {F L : Type*} [DecidableEq F] [DecidableEq L] (C : Type*) (V : F → Type*)
    (E : L → Type*) where
  setting : C → (f : F) → V f
  list : C → (l : L) → List (E l)
  enter : C → Entry V E → C
  setting_set : ∀ c f v, setting (enter c (.set f v)) = Function.update (setting c) f v
  setting_append : ∀ c l e, setting (enter c (.append l e)) = setting c
  list_set : ∀ c f v, list (enter c (.set f v)) = list c
  list_append : ∀ c l e,
    list (enter c (.append l e)) = Function.update (list c) l (list c l ++ [e])
  ext : ∀ c d, setting c = setting d → list c = list d → c = d

namespace Ledger

variable {F L C : Type*} [DecidableEq F] [DecidableEq L] {V : F → Type*} {E : L → Type*}
  (a : Ledger C V E)

section Replay

def replay (c : C) (entries : List (Entry V E)) : C := run a.enter c entries

@[simp] theorem replay_nil (c : C) : a.replay c [] = c := rfl

theorem replay_append (c : C) (xs ys : List (Entry V E)) :
    a.replay c (xs ++ ys) = a.replay (a.replay c xs) ys := run_append a.enter c xs ys

theorem setting_enter (c : C) (e : Entry V E) (f : F) :
    a.setting (a.enter c e) f = (e.written f).getD (a.setting c f) := by
  cases e with
  | set g v =>
    rw [a.setting_set, Entry.written]
    by_cases h : g = f
    · subst h
      rw [Function.update_self, dif_pos rfl]
      rfl
    · rw [Function.update_of_ne (Ne.symm h), dif_neg h]
      rfl
  | append l e =>
    rw [a.setting_append]
    rfl

theorem list_enter (c : C) (e : Entry V E) (l : L) :
    a.list (a.enter c e) l = a.list c l ++ (e.appended l).toList := by
  cases e with
  | set f v =>
    rw [a.list_set]
    exact (List.append_nil _).symm
  | append k e =>
    rw [a.list_append, Entry.appended]
    by_cases h : k = l
    · subst h
      rw [Function.update_self, dif_pos rfl]
      rfl
    · rw [Function.update_of_ne (Ne.symm h), dif_neg h]
      exact (List.append_nil _).symm

theorem setting_replay (c : C) (entries : List (Entry V E)) (f : F) :
    a.setting (a.replay c entries) f = (lastWritten f entries).getD (a.setting c f) := by
  induction entries using List.reverseRecOn with
  | nil => rfl
  | append_singleton entries e ih =>
    rw [replay, run_snoc, setting_enter, ← replay, ih, lastWritten_append, lastWritten_singleton]
    cases e.written f <;> rfl

theorem list_replay (c : C) (entries : List (Entry V E)) (l : L) :
    a.list (a.replay c entries) l = a.list c l ++ allAppended l entries := by
  induction entries using List.reverseRecOn with
  | nil => exact (List.append_nil _).symm
  | append_singleton entries e ih =>
    rw [replay, run_snoc, list_enter, ← replay, ih, allAppended_append, allAppended_singleton,
      List.append_assoc]

theorem ext_iff (c d : C) :
    c = d ↔ (∀ f, a.setting c f = a.setting d f) ∧ ∀ l, a.list c l = a.list d l := by
  constructor
  · intro h
    subst h
    exact ⟨fun _ => rfl, fun _ => rfl⟩
  · intro h
    exact a.ext c d (funext h.1) (funext h.2)

/-- A journal without effect: nothing is appended, and a setting ends as it began. -/
theorem replay_eq_self_iff (c : C) (entries : List (Entry V E)) :
    a.replay c entries = c ↔
      (∀ f, ∀ v ∈ lastWritten f entries, v = a.setting c f) ∧
        ∀ l, allAppended l entries = [] := by
  rw [a.ext_iff]
  apply and_congr
  · apply forall_congr'
    intro f
    rw [setting_replay]
    cases lastWritten f entries <;> simp
  · apply forall_congr'
    intro l
    rw [list_replay, List.append_right_eq_self]

/-- A journal has no effect on what another one makes of the record: it appends nothing, and a
    setting that the other one leaves alone ends as it began. -/
theorem replay_replay_iff (c : C) (first second : List (Entry V E)) :
    a.replay (a.replay c first) second = a.replay c second ↔
      (∀ f, lastWritten f second = none → ∀ v ∈ lastWritten f first, v = a.setting c f) ∧
        ∀ l, allAppended l first = [] := by
  rw [a.ext_iff]
  apply and_congr
  · apply forall_congr'
    intro f
    rw [setting_replay, setting_replay, setting_replay]
    cases lastWritten f second <;> cases lastWritten f first <;> simp
  · apply forall_congr'
    intro l
    rw [list_replay, list_replay, list_replay, List.append_left_inj, List.append_right_eq_self]

theorem replay_twice_iff (c : C) (entries : List (Entry V E)) :
    a.replay (a.replay c entries) entries = a.replay c entries ↔
      ∀ l, allAppended l entries = [] := by
  rw [replay_replay_iff]
  apply and_iff_right
  intro f hnone v hv
  rw [hnone] at hv
  cases hv

end Replay

section Attempts

/-- Statements run in order; the first that fails ends the run. -/
def attempt : C → List (Option (Entry V E)) → C × Bool
  | c, [] => (c, true)
  | c, none :: _ => (c, false)
  | c, some e :: statements => attempt (a.enter c e) statements

end Attempts

end Ledger

section Attempts

variable {ε : Type*}

def entered : List (Option ε) → List ε
  | some e :: statements => e :: entered statements
  | _ => []

theorem mem_of_mem_entered {statements : List (Option ε)} {e : ε} (h : e ∈ entered statements) :
    some e ∈ statements := by
  induction statements with
  | nil => cases h
  | cons statement statements ih =>
    cases statement with
    | none => exact absurd h List.not_mem_nil
    | some d =>
      rcases List.mem_cons.mp h with rfl | hrest
      · exact List.mem_cons_self
      · exact List.mem_cons_of_mem _ (ih hrest)

def completes (statements : List (Option ε)) : Bool := statements.all Option.isSome

theorem completes_eq_false_iff (statements : List (Option ε)) :
    completes statements = false ↔ none ∈ statements := by
  induction statements with
  | nil => simp [completes]
  | cons statement statements ih =>
    unfold completes at ih ⊢
    cases statement <;> simp [ih]

theorem entered_eq {statements : List (Option ε)} (h : none ∉ statements) :
    entered statements = statements.filterMap id := by
  induction statements with
  | nil => rfl
  | cons statement statements ih =>
    obtain ⟨hfirst, hrest⟩ := List.ne_and_not_mem_of_not_mem_cons h
    cases statement with
    | none => exact absurd rfl hfirst
    | some e => exact congrArg (e :: ·) (ih hrest)

end Attempts

namespace Ledger

variable {F L C : Type*} [DecidableEq F] [DecidableEq L] {V : F → Type*} {E : L → Type*}
  (a : Ledger C V E)

theorem attempt_eq (c : C) (statements : List (Option (Entry V E))) :
    a.attempt c statements = (a.replay c (entered statements), completes statements) := by
  induction statements generalizing c with
  | nil => rfl
  | cons statement statements ih =>
    cases statement with
    | none => rfl
    | some e => exact ih (a.enter c e)

end Ledger

end Lib.Journal
