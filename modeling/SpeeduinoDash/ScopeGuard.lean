import SpeeduinoDash.Lib.Unwinding

set_option autoImplicit false

/-!
# Scope guards

The four guard classes, with the test of each destructor as the code writes it. The program around
them is any program of the language of scopes; `uncaught` is `std::uncaught_exceptions()`.
-/
namespace SpeeduinoDash.ScopeGuard
open Lib.Unwinding

inductive GuardClass where
  | scopeGuard
  | scopeExit
  | scopeFail
  | scopeSuccess
deriving DecidableEq

def callsFunc (c : GuardClass) (active : Bool) (uncaughtOnCreation uncaught : ℕ) : Bool :=
  match c with
  | .scopeGuard => active
  | .scopeExit => true
  | .scopeFail => uncaughtOnCreation < uncaught
  | .scopeSuccess => uncaught ≤ uncaughtOnCreation

def isDue (c : GuardClass) (active : Bool) (o : Exit) : Bool :=
  match c with
  | .scopeGuard => active
  | .scopeExit => true
  | .scopeFail => o = .thrown
  | .scopeSuccess => o ≠ .thrown

theorem callsFunc_eq_isDue (c : GuardClass) (active : Bool) (n : ℕ) (o : Exit) :
    callsFunc c active n (n + o.inFlight) = isDue c active o := by
  cases c <;> cases o <;> simp [callsFunc, isDue, Exit.inFlight]

variable {σ : Type}

theorem exec_eq (p : Stmt GuardClass σ) (m : Machine σ) :
    exec callsFunc p m = lift m (meaning isDue p m.store) := exec_eq_meaning callsFunc_eq_isDue p m

/-- A block runs its items in order and then the cleanups that are due, the last guard first, each
    with what the later ones left, whatever they throw. So it is with any number of exceptions in
    flight: in a handler, or in a cleanup that runs while the stack is unwound. -/
theorem block_cleans_up (items : List (Item GuardClass σ)) (m : Machine σ) :
    let x := runItems isDue items [] m.store
    exec callsFunc (block items) m =
      (x.1, ⟨x.2, m.uncaught + if x.1 = .thrown then 1 else 0⟩) := by
  intro x
  rw [exec_eq, meaning_block]
  rfl

/-- A guard that is dismissed or moved from anywhere in its scope, in a branch, a loop, a call, an
    inner scope, a handler or a cleanup, does not call its function, however the scope is left and
    whatever comes after in it; nor does one that was made from such a guard. Any other does. -/
theorem released_guard_is_silent (source : Option ℕ) (cleanup body : Stmt GuardClass σ)
    (m : Machine σ) :
    let entered := m.store.enter source
    let x := exec callsFunc body { m with store := entered }
    let left : Machine σ := { x.2 with store := x.2.store.leave }
    let y := exec callsFunc cleanup left
    (releases isDue body 0 entered = true ∨ entered.isActive = false →
      exec callsFunc (.guarded .scopeGuard source cleanup body) m = (x.1, left)) ∧
    (releases isDue body 0 entered = false → entered.isActive = true →
      exec callsFunc (.guarded .scopeGuard source cleanup body) m =
        (x.1, if y.1 = .thrown then y.2.catch else y.2)) := by
  intro entered x left y
  have hx : x = lift m (meaning isDue body entered) := exec_eq body _
  have hcalls : callsFunc .scopeGuard x.2.store.isActive m.uncaught x.2.uncaught =
      (entered.isActive && !releases isDue body 0 entered) := by
    change x.2.store.isActive = _
    rw [hx, Store.isActive_eq, Store.isActive_eq]
    exact activeAt_meaning isDue body 0 entered
  rw [exec]
  constructor
  · rintro (hreleased | hinactive)
    · rw [hreleased, Bool.not_true, Bool.and_false] at hcalls
      exact if_neg (ne_true_of_eq_false hcalls)
    · rw [hinactive, Bool.false_and] at hcalls
      exact if_neg (ne_true_of_eq_false hcalls)
  · intro hkept hactive
    rw [hkept, hactive] at hcalls
    exact if_pos hcalls

def push (n : ℕ) : Stmt GuardClass (List ℕ) := .prim (fun log => (log ++ [n], false))

def throwing (n : ℕ) : Stmt GuardClass (List ℕ) := .prim (fun log => (log ++ [n], true))

/-- A rollback that a branch of an inner scope dismisses before an exception. -/
def committed : Stmt GuardClass (List ℕ) :=
  .seq (push 1) (.seq (.guarded .scopeExit none (push 7)
    (.ite (fun log => log = [1]) (.dismiss 1) (push 8))) (throwing 2))

theorem released_guard_is_silent_dismissed :
    (exec callsFunc (.guarded .scopeGuard none (push 9) committed) ⟨⟨[], []⟩, 0⟩).2.store.world =
      [1, 7, 2] := by
  have h := (released_guard_is_silent none (push 9) committed ⟨⟨[], []⟩, 0⟩).1 (.inl rfl)
  exact congrArg (fun x => x.2.store.world) h

/-- The first guard is moved to the second; the cleanups of the others run in reverse, and one of
    them throws while the stack is unwound. -/
example : exec callsFunc (block [.guard .scopeGuard none (push 1), .guard .scopeExit none (push 2),
    .guard .scopeFail none (throwing 3), .guard .scopeSuccess none (push 4),
    .guard .scopeGuard (some 3) (push 1), .stmt (throwing 0)]) ⟨⟨[], []⟩, 5⟩ =
      (.thrown, ⟨⟨[0, 1, 3, 2], []⟩, 6⟩) := by rfl

end SpeeduinoDash.ScopeGuard
