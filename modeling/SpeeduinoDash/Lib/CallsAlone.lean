import SpeeduinoDash.Lib.LockedCalls

set_option autoImplicit false

/-!
# A call that runs alone

Without other threads, and with callbacks that do not call back, a method does its statements one
after the other.
-/
namespace Lib.LockedCalls
open Lib.Runs

variable {T σ ℓ κ μ : Type*}

section Alone

/-- A method on its own: nobody else runs, and its callbacks come back without calling. -/
structure Outcome (σ ℓ κ : Type*) where
  object : σ
  locals : ℓ
  told : List κ := []

def perform (o : Outcome σ ℓ κ) : Stmt σ ℓ κ → Outcome σ ℓ κ
  | .lock | .unlock => o
  | .update f => { o with object := (f o.object o.locals).1, locals := (f o.object o.locals).2 }
  | .callHolding f => { o with told := o.told ++ (f o.object o.locals).toList }
  | .callReleased f =>
    { o with object := (f o.object).1, told := o.told ++ (f o.object).2.toList }

variable [DecidableEq T] (body : μ → Body σ ℓ κ) (init : ℓ) {s : System T σ ℓ κ} {t : T}

def System.outcome (s : System T σ ℓ κ) (locals : ℓ) : Outcome σ ℓ κ :=
  ⟨s.object, locals, s.log.map Prod.fst⟩

theorem statement_alone (stmt : Stmt σ ℓ κ) {rest : Body σ ℓ κ} {held : Bool}
    (hdisc : Disciplined held (stmt :: rest)) {locals : ℓ} {stack : List (Activation σ ℓ κ)}
    (howner : s.owner = if held then some t else none)
    (htop : s.frames t = ⟨stmt :: rest, locals, none⟩ :: stack) :
    ∃ events : List (Event T μ), ∃ held' locals',
      let s' := run (step body init) s events
      Disciplined held' rest ∧ (s'.owner = if held' then some t else none) ∧
      s'.frames = Function.update s.frames t (⟨rest, locals', none⟩ :: stack) ∧
      s'.outcome locals' = perform (s.outcome locals) stmt := by
  cases stmt with
  | lock =>
    obtain ⟨rfl, hdisc⟩ := hdisc
    exact ⟨[.advance t], true, locals, by
      simp [step, htop, exec, howner, hdisc, System.put, System.outcome, perform]⟩
  | unlock =>
    obtain ⟨rfl, hdisc⟩ := hdisc
    exact ⟨[.advance t], false, locals, by
      simp [step, htop, exec, hdisc, System.put, System.outcome, perform]⟩
  | update f =>
    have hrest : Disciplined held rest := hdisc
    exact ⟨[.advance t], held, (f s.object locals).2, by
      simp [step, htop, exec, howner, hrest, System.put, System.outcome, perform]⟩
  | callHolding f =>
    obtain ⟨rfl, hdisc⟩ := hdisc
    cases htold : f s.object locals with
    | none =>
      exact ⟨[.advance t], true, locals, by
        simp [step, htop, exec, howner, hdisc, htold, System.put, System.outcome, perform]⟩
    | some k =>
      exact ⟨[.advance t, .finish t], true, locals, by
        simp [step, htop, exec, howner, hdisc, htold, System.put, System.outcome, perform]⟩
  | callReleased f =>
    obtain ⟨rfl, hdisc⟩ := hdisc
    cases htold : (f s.object).2 with
    | none =>
      exact ⟨[.advance t], true, locals, by
        simp [step, htop, exec, howner, hdisc, htold, System.put, System.outcome, perform]⟩
    | some k =>
      -- the callback comes back at once, and the method takes the lock again
      exact ⟨[.advance t, .finish t, .advance t], true, locals, by
        simp [step, htop, exec, hdisc, htold, System.put, System.outcome, perform]⟩

theorem rest_alone (rest : Body σ ℓ κ) {held : Bool} (hdisc : Disciplined held rest)
    {locals : ℓ} {stack : List (Activation σ ℓ κ)}
    (howner : s.owner = if held then some t else none)
    (htop : s.frames t = ⟨rest, locals, none⟩ :: stack) :
    ∃ events : List (Event T μ),
      let s' := run (step body init) s events
      s'.owner = none ∧ s'.frames = Function.update s.frames t stack ∧
      ∃ locals', s'.outcome locals' = run perform (s.outcome locals) rest := by
  induction rest generalizing held s locals with
  | nil =>
    obtain rfl : held = false := hdisc
    exact ⟨[.advance t], by simp [step, htop, exec, System.put, howner, System.outcome]⟩
  | cons stmt rest ih =>
    obtain ⟨events, held', locals', hdisc', howner', hstacks, hperform⟩ :=
      statement_alone body init stmt hdisc howner htop
    obtain ⟨events', hfree, hstacks', locals'', hrest⟩ :=
      ih hdisc' howner' (by rw [hstacks, Function.update_self])
    refine ⟨events ++ events', ?_⟩
    rw [run_append]
    refine ⟨hfree, ?_, locals'', ?_⟩
    · rw [hstacks', hstacks, Function.update_idem]
    · rw [hrest, hperform]
      rfl

/-- From rest, a single call can run alone to rest again: then it does what its statements do. -/
theorem call_alone (hbody : ∀ m, Disciplined false (body m)) (hidle : s.Idle) (t : T) (m : μ) :
    ∃ events : List (Event T μ),
      let s' := run (step body init) s (.call t m :: events)
      s'.Idle ∧ ∃ locals, s'.outcome locals = run perform (s.outcome init) (body m) := by
  obtain ⟨hfree, hstacks⟩ := hidle
  have hcall : step body init s (.call t m) = s.put t [⟨body m, init, none⟩] := by
    simp [step, hstacks t, free]
  have htop : (s.put t [⟨body m, init, none⟩]).frames t = [⟨body m, init, none⟩] :=
    Function.update_self ..
  obtain ⟨events, hfree', hstacks', hrest⟩ :=
    rest_alone body init (body m) (hbody m) (s := s.put t _) hfree htop
  refine ⟨events, ?_⟩
  rw [run_cons, hcall]
  refine ⟨⟨hfree', fun t' => ?_⟩, hrest⟩
  rw [hstacks', System.put, Function.update_idem]
  by_cases ht : t' = t
  · rw [ht, Function.update_self]
  · rw [Function.update_of_ne ht, hstacks t']

end Alone

end Lib.LockedCalls
