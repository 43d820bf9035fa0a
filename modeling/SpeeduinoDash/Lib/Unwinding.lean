import Mathlib.Data.Nat.Notation
import Mathlib.Tactic.SplitIfs

set_option autoImplicit false

/-!
# Scopes that clean up after themselves

A small language of blocks, exceptions and guards: a guard runs its cleanup when control leaves its
scope, also while an exception unwinds the stack. The machine counts the exceptions in flight and
gives a guard only the count when it was made and the count when it is destroyed; the meaning says
how the scope was left. They agree if the guards read the counts rightly, wherever the program is
run: in the middle of unwinding, in a handler, in a cleanup.
-/
namespace Lib.Unwinding

inductive Exit where
  | normal
  | returned
  | thrown
deriving DecidableEq

/-- A guard is made active, or takes the activity of the guard `i` scopes out; `dismiss` counts the
    scopes alike. A cleanup runs outside the scope of its own guard. -/
inductive Stmt (κ σ : Type*) where
  | prim (f : σ → σ × Bool)
  | dismiss (i : ℕ)
  | ret
  | seq (p q : Stmt κ σ)
  | ite (c : σ → Bool) (p q : Stmt κ σ)
  | loop (count : σ → ℕ) (body : Stmt κ σ)
  | call (p : Stmt κ σ)
  | tryCatch (p handler : Stmt κ σ)
  | guarded (kind : κ) (source : Option ℕ) (cleanup body : Stmt κ σ)

/-- The world, and for each guard in scope whether it is active, the innermost first. -/
structure Store (σ : Type*) where
  world : σ
  active : List Bool

structure Machine (σ : Type*) where
  store : Store σ
  uncaught : ℕ

variable {κ σ : Type*}

def Exit.afterCall (o : Exit) : Exit := if o = .returned then .normal else o

def Exit.inFlight (o : Exit) : ℕ := if o = .thrown then 1 else 0

@[simp] theorem Exit.inFlight_afterCall (o : Exit) : o.afterCall.inFlight = o.inFlight := by
  cases o <;> rfl

def Store.dismiss (s : Store σ) (i : ℕ) : Store σ := { s with active := s.active.set i false }

def Store.enter (s : Store σ) : Option ℕ → Store σ
  | none => { s with active := true :: s.active }
  | some i => { s with active := s.active.getD i false :: s.active.set i false }

def Store.isActive (s : Store σ) : Bool := s.active.headD false

def Store.leave (s : Store σ) : Store σ := { s with active := s.active.tail }

def iterate {τ : Type*} (body : τ → Exit × τ) : ℕ → τ → Exit × τ
  | 0, s => (.normal, s)
  | n + 1, s => if (body s).1 = .normal then iterate body n (body s).2 else body s

def Machine.throw (m : Machine σ) : Machine σ := { m with uncaught := m.uncaught + 1 }

def Machine.catch (m : Machine σ) : Machine σ := { m with uncaught := m.uncaught - 1 }

/-- Execution, where `fires` decides from the counts whether a guard runs its cleanup. A guard
    catches what its cleanup throws. -/
def exec (fires : κ → Bool → ℕ → ℕ → Bool) : Stmt κ σ → Machine σ → Exit × Machine σ
  | .prim f, m =>
    let m' := { m with store.world := (f m.store.world).1 }
    if (f m.store.world).2 then (.thrown, m'.throw) else (.normal, m')
  | .dismiss i, m => (.normal, { m with store := m.store.dismiss i })
  | .ret, m => (.returned, m)
  | .seq p q, m =>
    if (exec fires p m).1 = .normal then exec fires q (exec fires p m).2 else exec fires p m
  | .ite c p q, m => if c m.store.world then exec fires p m else exec fires q m
  | .loop count body, m => iterate (exec fires body) (count m.store.world) m
  | .call p, m => ((exec fires p m).1.afterCall, (exec fires p m).2)
  | .tryCatch p handler, m =>
    if (exec fires p m).1 = .thrown then exec fires handler (exec fires p m).2.catch
    else exec fires p m
  | .guarded kind source cleanup body, m =>
    let x := exec fires body { m with store := m.store.enter source }
    let left := { x.2 with store := x.2.store.leave }
    if fires kind x.2.store.isActive m.uncaught x.2.uncaught then
      let y := exec fires cleanup left
      (x.1, if y.1 = .thrown then y.2.catch else y.2)
    else (x.1, left)

/-- The meaning, where `runs` decides from how the scope was left. -/
def meaning (runs : κ → Bool → Exit → Bool) : Stmt κ σ → Store σ → Exit × Store σ
  | .prim f, s =>
    (if (f s.world).2 then .thrown else .normal, { s with world := (f s.world).1 })
  | .dismiss i, s => (.normal, s.dismiss i)
  | .ret, s => (.returned, s)
  | .seq p q, s =>
    if (meaning runs p s).1 = .normal then meaning runs q (meaning runs p s).2
    else meaning runs p s
  | .ite c p q, s => if c s.world then meaning runs p s else meaning runs q s
  | .loop count body, s => iterate (meaning runs body) (count s.world) s
  | .call p, s => ((meaning runs p s).1.afterCall, (meaning runs p s).2)
  | .tryCatch p handler, s =>
    if (meaning runs p s).1 = .thrown then meaning runs handler (meaning runs p s).2
    else meaning runs p s
  | .guarded kind source cleanup body, s =>
    let x := meaning runs body (s.enter source)
    if runs kind x.2.isActive x.1 then (x.1, (meaning runs cleanup x.2.leave).2)
    else (x.1, x.2.leave)

section Agreement

variable {fires : κ → Bool → ℕ → ℕ → Bool} {runs : κ → Bool → Exit → Bool}

/-- Where execution from `m` has the outcome and the store of `x`, and counts its exception. -/
def lift (m : Machine σ) (x : Exit × Store σ) : Exit × Machine σ :=
  (x.1, ⟨x.2, m.uncaught + x.1.inFlight⟩)

theorem iterate_lift {body : Machine σ → Exit × Machine σ} {body' : Store σ → Exit × Store σ}
    (h : ∀ m, body m = lift m (body' m.store)) (n : ℕ) (m : Machine σ) :
    iterate body n m = lift m (iterate body' n m.store) := by
  induction n generalizing m with
  | zero => rfl
  | succ n ih =>
    rw [iterate, iterate, h m]
    by_cases hnormal : (body' m.store).1 = .normal
    · have hcount : m.uncaught + (body' m.store).1.inFlight = m.uncaught := by
        rw [hnormal]
        rfl
      rw [if_pos hnormal, lift, if_pos hnormal, hcount, ih]
      rfl
    · rw [if_neg hnormal, lift, if_neg hnormal]

/-- Guards that read the counts rightly run their cleanups exactly when the meaning says so. -/
theorem exec_eq_meaning
    (hfires : ∀ kind active n o, fires kind active n (n + o.inFlight) = runs kind active o)
    (p : Stmt κ σ) (m : Machine σ) : exec fires p m = lift m (meaning runs p m.store) := by
  induction p generalizing m with
  | prim f =>
    rw [exec, meaning]
    cases hthrows : (f m.store.world).2 <;> simp [lift, Machine.throw, Exit.inFlight]
  | dismiss i => rfl
  | ret => rfl
  | seq p q ihp ihq =>
    rw [exec, meaning, ihp, lift]
    by_cases hnormal : (meaning runs p m.store).1 = .normal
    · rw [if_pos hnormal, if_pos hnormal, ihq, hnormal]
      rfl
    · rw [if_neg hnormal, if_neg hnormal]
      rfl
  | ite c p q ihp ihq =>
    rw [exec, meaning]
    split_ifs
    · exact ihp m
    · exact ihq m
  | loop count body ih => exact iterate_lift ih (count m.store.world) m
  | call p ih => rw [exec, meaning, ih, lift, lift, Exit.inFlight_afterCall]
  | tryCatch p handler ihp ihh =>
    rw [exec, meaning, ihp, lift]
    by_cases hthrown : (meaning runs p m.store).1 = .thrown
    · rw [if_pos hthrown, if_pos hthrown, ihh, hthrown]
      rfl
    · rw [if_neg hthrown, if_neg hthrown]
      rfl
  | guarded kind source cleanup body ihc ihb =>
    rw [exec, meaning, ihb]
    let x := meaning runs body (m.store.enter source)
    change (if fires kind x.2.isActive m.uncaught (m.uncaught + x.1.inFlight) then _ else _) =
      lift m (if runs kind x.2.isActive x.1 then _ else _)
    rw [hfires]
    by_cases hruns : runs kind x.2.isActive x.1 = true
    · rw [if_pos hruns, if_pos hruns]
      let y := meaning runs cleanup x.2.leave
      let left : Machine σ := ⟨x.2.leave, m.uncaught + x.1.inFlight⟩
      have hcleanup : exec fires cleanup left = lift left y := ihc left
      change (x.1, if (exec fires cleanup left).1 = .thrown then (exec fires cleanup left).2.catch
        else (exec fires cleanup left).2) = lift m (x.1, y.2)
      rw [hcleanup]
      cases hy : y.1 <;> simp [lift, hy, Machine.catch, Exit.inFlight, left]
    · rw [if_neg hruns, if_neg hruns]
      rfl

end Agreement

section Activity

variable (runs : κ → Bool → Exit → Bool)

def Store.activeAt (s : Store σ) (i : ℕ) : Bool := s.active.getD i false

theorem Store.isActive_eq (s : Store σ) : s.isActive = s.activeAt 0 := by
  cases h : s.active <;> simp [Store.isActive, Store.activeAt, h]

@[simp] theorem Store.activeAt_leave (s : Store σ) (i : ℕ) :
    s.leave.activeAt i = s.activeAt (i + 1) := by
  cases h : s.active <;> simp [Store.leave, Store.activeAt, h]

theorem getD_set_false (xs : List Bool) (i j : ℕ) :
    (xs.set j false).getD i false = (xs.getD i false && !decide (j = i)) := by
  by_cases h : j = i
  · subst h
    rw [List.getD_eq_getElem?_getD, List.getElem?_set_self']
    cases hx : xs[j]? <;> simp
  · rw [List.getD_eq_getElem?_getD, List.getElem?_set_ne h, decide_eq_false h,
      List.getD_eq_getElem?_getD, Bool.not_false, Bool.and_true]

@[simp] theorem Store.activeAt_dismiss (s : Store σ) (i j : ℕ) :
    (s.dismiss j).activeAt i = (s.activeAt i && !decide (j = i)) :=
  getD_set_false s.active i j

@[simp] theorem Store.activeAt_enter (s : Store σ) (source : Option ℕ) (i : ℕ) :
    (s.enter source).activeAt (i + 1) = (s.activeAt i && !decide (source = some i)) := by
  cases source with
  | none => simp [Store.enter, Store.activeAt]
  | some j =>
    rw [Store.enter, Store.activeAt, List.getD_cons_succ, getD_set_false, Store.activeAt]
    simp

def iterateAny {τ : Type*} (body : τ → Exit × τ) (does : τ → Bool) : ℕ → τ → Bool
  | 0, _ => false
  | n + 1, s => does s || ((body s).1 = .normal && iterateAny body does n (body s).2)

/-- Whether the program, run from `s`, dismisses the guard `i` scopes out or moves from it, in
    whatever branch, round, call, handler, inner scope or cleanup it comes to. -/
def releases : Stmt κ σ → ℕ → Store σ → Bool
  | .prim _, _, _ => false
  | .dismiss j, i, _ => j = i
  | .ret, _, _ => false
  | .seq p q, i, s =>
    releases p i s || ((meaning runs p s).1 = .normal && releases q i (meaning runs p s).2)
  | .ite c p q, i, s => if c s.world then releases p i s else releases q i s
  | .loop count body, i, s =>
    iterateAny (meaning runs body) (releases body i) (count s.world) s
  | .call p, i, s => releases p i s
  | .tryCatch p handler, i, s =>
    releases p i s || ((meaning runs p s).1 = .thrown && releases handler i (meaning runs p s).2)
  | .guarded kind source cleanup body, i, s =>
    let x := meaning runs body (s.enter source)
    source = some i || releases body (i + 1) (s.enter source) ||
      (runs kind x.2.isActive x.1 && releases cleanup i x.2.leave)

theorem activeAt_iterate {body : Store σ → Exit × Store σ} {does : Store σ → Bool} {i : ℕ}
    (h : ∀ s, (body s).2.activeAt i = (s.activeAt i && !does s)) (n : ℕ) (s : Store σ) :
    (iterate body n s).2.activeAt i = (s.activeAt i && !iterateAny body does n s) := by
  induction n generalizing s with
  | zero => simp [iterate, iterateAny]
  | succ n ih =>
    rw [iterate, iterateAny]
    by_cases hnormal : (body s).1 = .normal
    · rw [if_pos hnormal, ih, h, decide_eq_true hnormal, Bool.true_and, Bool.not_or, Bool.and_assoc]
    · rw [if_neg hnormal, h, decide_eq_false hnormal, Bool.false_and, Bool.or_false]

/-- A guard stays active exactly as long as it is not released. -/
theorem activeAt_meaning (p : Stmt κ σ) (i : ℕ) (s : Store σ) :
    (meaning runs p s).2.activeAt i = (s.activeAt i && !releases runs p i s) := by
  induction p generalizing i s with
  | prim f => exact (Bool.and_true _).symm
  | dismiss j => exact s.activeAt_dismiss i j
  | ret => exact (Bool.and_true _).symm
  | seq p q ihp ihq =>
    rw [meaning, releases]
    by_cases hnormal : (meaning runs p s).1 = .normal
    · rw [if_pos hnormal, ihq, ihp, decide_eq_true hnormal, Bool.true_and, Bool.not_or,
        Bool.and_assoc]
    · rw [if_neg hnormal, ihp, decide_eq_false hnormal, Bool.false_and, Bool.or_false]
  | ite c p q ihp ihq =>
    rw [meaning, releases]
    split_ifs
    · exact ihp i s
    · exact ihq i s
  | loop count body ih => exact activeAt_iterate (ih i) (count s.world) s
  | call p ih => exact ih i s
  | tryCatch p handler ihp ihh =>
    rw [meaning, releases]
    by_cases hthrown : (meaning runs p s).1 = .thrown
    · rw [if_pos hthrown, ihh, ihp, decide_eq_true hthrown, Bool.true_and, Bool.not_or,
        Bool.and_assoc]
    · rw [if_neg hthrown, ihp, decide_eq_false hthrown, Bool.false_and, Bool.or_false]
  | guarded kind source cleanup body ihc ihb =>
    let x := meaning runs body (s.enter source)
    have hleft : x.2.leave.activeAt i = (s.activeAt i && !decide (source = some i) &&
        !releases runs body (i + 1) (s.enter source)) := by
      rw [Store.activeAt_leave, ihb, Store.activeAt_enter]
    change (if runs kind x.2.isActive x.1 then (x.1, (meaning runs cleanup x.2.leave).2)
        else (x.1, x.2.leave)).2.activeAt i = (s.activeAt i && !(decide (source = some i) ||
      releases runs body (i + 1) (s.enter source) ||
        (runs kind x.2.isActive x.1 && releases runs cleanup i x.2.leave)))
    cases hruns : runs kind x.2.isActive x.1 with
    | true =>
      rw [if_pos rfl, ihc, hleft, Bool.true_and]
      simp only [Bool.not_or, Bool.and_assoc]
    | false =>
      rw [if_neg Bool.false_ne_true, hleft, Bool.false_and, Bool.or_false]
      simp only [Bool.not_or, Bool.and_assoc]

end Activity

section Blocks

inductive Item (κ σ : Type*) where
  | stmt (p : Stmt κ σ)
  | guard (kind : κ) (source : Option ℕ) (cleanup : Stmt κ σ)

/-- A guard lives to the end of its block. -/
def block : List (Item κ σ) → Stmt κ σ
  | [] => .prim (fun w => (w, false))
  | .stmt p :: items => .seq p (block items)
  | .guard kind source cleanup :: items => .guarded kind source cleanup (block items)

variable (runs : κ → Bool → Exit → Bool)

def unwind (o : Exit) : List (κ × Stmt κ σ) → Store σ → Store σ
  | [], s => s
  | (kind, cleanup) :: stack, s =>
    unwind o stack
      (if runs kind s.isActive o then (meaning runs cleanup s.leave).2 else s.leave)

/-- Run the items in order and keep the guards on a stack, until the end of the block or the first
    item that leaves it; then unwind the stack. -/
def runItems : List (Item κ σ) → List (κ × Stmt κ σ) → Store σ → Exit × Store σ
  | [], stack, s => (.normal, unwind runs .normal stack s)
  | .stmt p :: items, stack, s =>
    let x := meaning runs p s
    if x.1 = .normal then runItems items stack x.2 else (x.1, unwind runs x.1 stack x.2)
  | .guard kind source cleanup :: items, stack, s =>
    runItems items ((kind, cleanup) :: stack) (s.enter source)

theorem runItems_eq (items : List (Item κ σ)) (stack : List (κ × Stmt κ σ)) (s : Store σ) :
    runItems runs items stack s =
      ((meaning runs (block items) s).1,
        unwind runs (meaning runs (block items) s).1 stack (meaning runs (block items) s).2) := by
  induction items generalizing stack s with
  | nil => rfl
  | cons item items ih =>
    cases item with
    | stmt p =>
      rw [runItems, block, meaning]
      by_cases hnormal : (meaning runs p s).1 = .normal
      · rw [if_pos hnormal, if_pos hnormal]
        exact ih stack (meaning runs p s).2
      · rw [if_neg hnormal, if_neg hnormal]
    | guard kind source cleanup =>
      let x := meaning runs (block items) (s.enter source)
      have hblock : meaning runs (block (.guard kind source cleanup :: items)) s = (x.1,
          if runs kind x.2.isActive x.1 then (meaning runs cleanup x.2.leave).2
          else x.2.leave) := by
        rw [block, meaning]
        by_cases hruns : runs kind x.2.isActive x.1 = true
        · rw [if_pos hruns, if_pos hruns]
        · rw [if_neg hruns, if_neg hruns]
      rw [runItems, ih, hblock]
      rfl

/-- A block is its items in order, followed by its guards in reverse order. -/
theorem meaning_block (items : List (Item κ σ)) (s : Store σ) :
    meaning runs (block items) s = runItems runs items [] s := by
  rw [runItems_eq]
  rfl

end Blocks

end Lib.Unwinding
