import Mathlib.Logic.Function.Basic
import SpeeduinoDash.Lib.Runs

set_option autoImplicit false

/-!
# Methods that lock and call back

An object has one lock, which is not recursive. Its methods are straight lists of statements;
some of them call back, either as things stand or with the lock given up around the callback. A
callback may call any method again, so every thread has a stack of the methods it is inside of.
`σ` is the object, `ℓ` the local variables of a method, `κ` what a callback is told.
-/
namespace Lib.LockedCalls
open Lib.Runs

variable {T σ ℓ κ μ : Type*}

inductive Stmt (σ ℓ κ : Type*) where
  | lock
  | unlock
  | update (f : σ → ℓ → σ × ℓ)
  /-- Calls back without touching the lock. -/
  | callHolding (f : σ → ℓ → Option κ)
  /-- Changes the object; a callback is made with the lock given up and taken again after it,
      and what it throws is caught. -/
  | callReleased (f : σ → σ × Option κ)

abbrev Body (σ ℓ κ : Type*) := List (Stmt σ ℓ κ)

/-- A method in progress. While it waits for a callback, `waiting` has what the callback was told
    and whether its thread had the lock. -/
structure Activation (σ ℓ κ : Type*) where
  rest : Body σ ℓ κ
  locals : ℓ
  waiting : Option (κ × Bool) := none

/-- `log` has the callbacks so far, each with whether its thread had the lock. -/
structure System (T σ ℓ κ : Type*) where
  object : σ
  owner : Option T := none
  frames : T → List (Activation σ ℓ κ) := fun _ => []
  log : List (κ × Bool) := []

inductive Event (T μ : Type*) where
  | call (t : T) (m : μ)
  | advance (t : T)
  | finish (t : T)
  | raise (t : T)

/-- A thread is free to call outside of all methods and inside a callback. -/
def free : List (Activation σ ℓ κ) → Bool
  | [] => true
  | a :: _ => a.waiting.isSome

section Semantics

variable [DecidableEq T]

def System.put (s : System T σ ℓ κ) (t : T) (stack : List (Activation σ ℓ κ)) : System T σ ℓ κ :=
  { s with frames := Function.update s.frames t stack }

/-- The next statement of the method that thread `t` is in. A thread that cannot have the lock
    does not get on. -/
def exec (s : System T σ ℓ κ) (t : T) (locals : ℓ) (stack : List (Activation σ ℓ κ)) :
    Body σ ℓ κ → System T σ ℓ κ
  | [] => s.put t stack
  | .lock :: rest =>
    if s.owner = none then { s.put t (⟨rest, locals, none⟩ :: stack) with owner := some t } else s
  | .unlock :: rest => { s.put t (⟨rest, locals, none⟩ :: stack) with owner := none }
  | .update f :: rest =>
    { s.put t (⟨rest, (f s.object locals).2, none⟩ :: stack) with object := (f s.object locals).1 }
  | .callHolding f :: rest =>
    let made := (f s.object locals).map (fun k => (k, decide (s.owner = some t)))
    { s.put t (⟨rest, locals, made⟩ :: stack) with log := s.log ++ made.toList }
  | .callReleased f :: rest =>
    match (f s.object).2 with
    | none => { s.put t (⟨rest, locals, none⟩ :: stack) with object := (f s.object).1 }
    | some k =>
      { s.put t (⟨.lock :: rest, locals, some (k, false)⟩ :: stack) with
        object := (f s.object).1
        owner := none
        log := s.log ++ [(k, false)] }

variable (body : μ → Body σ ℓ κ) (init : ℓ)

def step (s : System T σ ℓ κ) : Event T μ → System T σ ℓ κ
  | .call t m =>
    if free (s.frames t) then s.put t (⟨body m, init, none⟩ :: s.frames t) else s
  | .advance t =>
    match s.frames t with
    | ⟨rest, locals, none⟩ :: stack => exec s t locals stack rest
    | _ => s
  | .finish t =>
    match s.frames t with
    | ⟨rest, locals, some _⟩ :: stack => s.put t (⟨rest, locals, none⟩ :: stack)
    | _ => s
  | .raise t =>
    match s.frames t with
    | ⟨rest, locals, some (_, locked)⟩ :: stack =>
      -- a callback that was made holding the lock ends its method, and the guard unlocks
      s.put t (⟨if locked then [.unlock] else rest, locals, none⟩ :: stack)
    | _ => s

/-- Thread `t` is about to take the lock that it has: it will wait forever. -/
def System.SelfLock (s : System T σ ℓ κ) (t : T) : Prop :=
  s.owner = some t ∧ ∃ rest locals stack, s.frames t = ⟨.lock :: rest, locals, none⟩ :: stack

def System.Inside (s : System T σ ℓ κ) (t : T) (k : κ) (locked : Bool) : Prop :=
  ∃ rest locals stack, s.frames t = ⟨rest, locals, some (k, locked)⟩ :: stack

def SelfLockFree (s : System T σ ℓ κ) (events : List (Event T μ)) : Prop :=
  EveryState (step body init) (fun s => ∀ t, ¬ s.SelfLock t) s events

/-- Everything a step can do: nothing, a call, a statement, or the end of a callback. -/
theorem step_cases (s : System T σ ℓ κ) (e : Event T μ) :
    step body init s e = s ∨
    (∃ t m, e = .call t m ∧ free (s.frames t) = true ∧
      step body init s e = s.put t (⟨body m, init, none⟩ :: s.frames t)) ∨
    (∃ t rest locals stack, e = .advance t ∧ s.frames t = ⟨rest, locals, none⟩ :: stack ∧
      step body init s e = exec s t locals stack rest) ∨
    (∃ t rest rest' locals stack k locked, s.frames t = ⟨rest, locals, some (k, locked)⟩ :: stack ∧
      (rest' = rest ∨ locked = true ∧ rest' = [.unlock]) ∧
      step body init s e = s.put t (⟨rest', locals, none⟩ :: stack)) := by
  cases e with
  | call t m =>
    cases hfree : free (s.frames t) with
    | false => exact .inl (by simp [step, hfree])
    | true => exact .inr (.inl ⟨t, m, rfl, hfree, by simp [step, hfree]⟩)
  | advance t =>
    cases hstack : s.frames t with
    | nil => exact .inl (by simp [step, hstack])
    | cons a stack =>
      obtain ⟨rest, locals, _ | w⟩ := a
      · exact .inr (.inr (.inl ⟨t, rest, locals, stack, rfl, hstack, by simp [step, hstack]⟩))
      · exact .inl (by simp [step, hstack])
  | finish t =>
    cases hstack : s.frames t with
    | nil => exact .inl (by simp [step, hstack])
    | cons a stack =>
      obtain ⟨rest, locals, _ | ⟨k, locked⟩⟩ := a
      · exact .inl (by simp [step, hstack])
      · exact .inr (.inr (.inr ⟨t, rest, rest, locals, stack, k, locked, hstack, .inl rfl,
          by simp [step, hstack]⟩))
  | raise t =>
    cases hstack : s.frames t with
    | nil => exact .inl (by simp [step, hstack])
    | cons a stack =>
      obtain ⟨rest, locals, _ | ⟨k, _ | _⟩⟩ := a
      · exact .inl (by simp [step, hstack])
      · exact .inr (.inr (.inr ⟨t, rest, rest, locals, stack, k, false, hstack, .inl rfl,
          by simp [step, hstack]⟩))
      · exact .inr (.inr (.inr ⟨t, rest, [.unlock], locals, stack, k, true, hstack,
          .inr ⟨rfl, rfl⟩, by simp [step, hstack]⟩))

end Semantics

section Discipline

/-- A body that starts with the lock held or not as `held` says, takes and gives it up in turn, and
    ends without it. -/
def Disciplined : Bool → Body σ ℓ κ → Prop
  | held, [] => held = false
  | held, .lock :: rest => held = false ∧ Disciplined true rest
  | held, .unlock :: rest => held = true ∧ Disciplined false rest
  | held, .update _ :: rest => Disciplined held rest
  | held, .callHolding _ :: rest => held = true ∧ Disciplined held rest
  | held, .callReleased _ :: rest => held = true ∧ Disciplined held rest

theorem Disciplined.unique {held held' : Bool} {rest : Body σ ℓ κ} (h : Disciplined held rest)
    (h' : Disciplined held' rest) : held = held' := by
  induction rest with
  | nil => exact h.trans h'.symm
  | cons stmt rest ih =>
    cases stmt with
    | update f => exact ih h h'
    | _ => exact h.1.trans h'.1.symm

def Stmt.Keeps : Stmt σ ℓ κ → Prop
  | .lock | .unlock => False
  | _ => True

theorem disciplined_cons {stmt : Stmt σ ℓ κ} (h : stmt.Keeps) (rest : Body σ ℓ κ) :
    Disciplined true (stmt :: rest) ↔ Disciplined true rest := by
  cases stmt with
  | lock => cases h
  | unlock => cases h
  | update f => exact Iff.rfl
  | callHolding f => exact and_iff_right rfl
  | callReleased f => exact and_iff_right rfl

theorem disciplined_append {stmts : Body σ ℓ κ} (h : ∀ stmt ∈ stmts, stmt.Keeps)
    (rest : Body σ ℓ κ) : Disciplined true (stmts ++ rest) ↔ Disciplined true rest := by
  induction stmts with
  | nil => rfl
  | cons stmt stmts ih =>
    rw [List.cons_append, disciplined_cons (h stmt List.mem_cons_self)]
    exact ih (fun stmt' hmem => h stmt' (List.mem_cons_of_mem stmt hmem))

def Activation.Holds (a : Activation σ ℓ κ) : Prop := Disciplined true a.rest

def Holding (stack : List (Activation σ ℓ κ)) : Prop := ∃ a ∈ stack, a.Holds

theorem holding_cons {a : Activation σ ℓ κ} {stack : List (Activation σ ℓ κ)} :
    Holding (a :: stack) ↔ a.Holds ∨ Holding stack := by
  simp [Holding]

theorem holding_cons_of_not {a : Activation σ ℓ κ} {stack : List (Activation σ ℓ κ)}
    (ha : ¬ a.Holds) : Holding (a :: stack) ↔ Holding stack := by
  rw [holding_cons, or_iff_right ha]

theorem Disciplined.not_holds {rest : Body σ ℓ κ} (h : Disciplined false rest) (locals : ℓ)
    (w : Option (κ × Bool)) : ¬ (Activation.mk rest locals w).Holds :=
  fun htrue => Bool.noConfusion (h.unique htrue)

theorem not_holds_lock (rest : Body σ ℓ κ) (locals : ℓ) (w : Option (κ × Bool)) :
    ¬ (Activation.mk (.lock :: rest) locals w).Holds :=
  fun h => Bool.noConfusion h.1

variable (underLock : κ → Prop)

/-- `underLock` tells the callbacks that are made holding the lock from the others. -/
def Stmt.Tells : Stmt σ ℓ κ → Prop
  | .callHolding f => ∀ x locals k, f x locals = some k → underLock k
  | .callReleased f => ∀ x k, (f x).2 = some k → ¬ underLock k
  | _ => True

structure Activation.Sound (a : Activation σ ℓ κ) : Prop where
  disciplined : ∃ held, Disciplined held a.rest
  tells : ∀ stmt ∈ a.rest, stmt.Tells underLock
  holding : ∀ k, a.waiting = some (k, true) → a.Holds ∧ underLock k
  released : ∀ k, a.waiting = some (k, false) → (∃ rest, a.rest = .lock :: rest) ∧ ¬ underLock k

/-- A stack of sound activations, at most one of which has the lock. -/
structure SoundStack (stack : List (Activation σ ℓ κ)) : Prop where
  sound : ∀ a ∈ stack, a.Sound underLock
  once : stack.Pairwise (fun a b => a.Holds → ¬ b.Holds)

theorem SoundStack.nil : SoundStack underLock ([] : List (Activation σ ℓ κ)) :=
  ⟨fun _ hmem => absurd hmem List.not_mem_nil, List.Pairwise.nil⟩

variable {underLock}

theorem SoundStack.cons {a : Activation σ ℓ κ} {stack : List (Activation σ ℓ κ)}
    (h : SoundStack underLock stack) (ha : a.Sound underLock) (honce : a.Holds → ¬ Holding stack) :
    SoundStack underLock (a :: stack) := by
  refine ⟨fun b hb => ?_, List.pairwise_cons.mpr ⟨fun b hb hholds hb' => ?_, h.once⟩⟩
  · rcases List.mem_cons.mp hb with rfl | hb
    · exact ha
    · exact h.sound b hb
  · exact honce hholds ⟨b, hb, hb'⟩

theorem SoundStack.of_cons {a : Activation σ ℓ κ} {stack : List (Activation σ ℓ κ)}
    (h : SoundStack underLock (a :: stack)) :
    a.Sound underLock ∧ (a.Holds → ¬ Holding stack) ∧ SoundStack underLock stack := by
  obtain ⟨honce, hrest⟩ := List.pairwise_cons.mp h.once
  refine ⟨h.sound a List.mem_cons_self, ?_,
    fun b hb => h.sound b (List.mem_cons_of_mem a hb), hrest⟩
  rintro ha ⟨b, hb, hholds⟩
  exact honce b hb ha hholds

theorem Activation.Sound.running {held : Bool} {rest : Body σ ℓ κ} (h : Disciplined held rest)
    (htells : ∀ stmt ∈ rest, stmt.Tells underLock) (locals : ℓ) :
    (Activation.mk rest locals none).Sound underLock :=
  ⟨⟨held, h⟩, htells, nofun, nofun⟩

variable (underLock)

structure System.Sound (s : System T σ ℓ κ) : Prop where
  owner : ∀ t, s.owner = some t ↔ Holding (s.frames t)
  stack : ∀ t, SoundStack underLock (s.frames t)

end Discipline

section Soundness

variable [DecidableEq T] {underLock : κ → Prop} {s : System T σ ℓ κ} {t : T} {locals : ℓ}
  {stack : List (Activation σ ℓ κ)} {rest : Body σ ℓ κ}

/-- A step of thread `t` changes its own stack, and the owner as far as `t` is concerned. -/
theorem System.Sound.put (h : s.Sound underLock) {owner : Option T} (object : σ)
    (log : List (κ × Bool))
    (hothers : ∀ t', t' ≠ t → (owner = some t' ↔ s.owner = some t'))
    (hself : owner = some t ↔ Holding stack) (hstack : SoundStack underLock stack) :
    System.Sound underLock ⟨object, owner, Function.update s.frames t stack, log⟩ := by
  constructor
  · intro t'
    by_cases ht : t' = t
    · subst ht
      simpa using hself
    · rw [hothers t' ht, h.owner t']
      dsimp only
      rw [Function.update_of_ne ht]
  · intro t'
    by_cases ht : t' = t
    · subst ht
      simpa using hstack
    · dsimp only
      rw [Function.update_of_ne ht]
      exact h.stack t'

omit [DecidableEq T] in
theorem System.Sound.top (h : s.Sound underLock) {a : Activation σ ℓ κ}
    (htop : s.frames t = a :: stack) :
    a.Sound underLock ∧ (a.Holds → ¬ Holding stack) ∧ SoundStack underLock stack := by
  have hstack := h.stack t
  rw [htop] at hstack
  exact hstack.of_cons

omit [DecidableEq T] in
theorem System.Sound.owner_eq (h : s.Sound underLock) {a : Activation σ ℓ κ}
    (htop : s.frames t = a :: stack) (hholds : a.Holds) : s.owner = some t := by
  rw [h.owner t, htop, holding_cons]
  exact .inl hholds

theorem System.Sound.replace (h : s.Sound underLock) (object : σ) (log : List (κ × Bool))
    {a : Activation σ ℓ κ}
    (htop : s.frames t = a :: stack) {a' : Activation σ ℓ κ} (ha' : a'.Sound underLock)
    (hholds : a'.Holds ↔ a.Holds) :
    System.Sound underLock ⟨object, s.owner, Function.update s.frames t (a' :: stack), log⟩ := by
  have howner := h.owner t
  rw [htop] at howner
  obtain ⟨-, honce, hrest⟩ := h.top htop
  refine h.put object log (fun t' _ => Iff.rfl) ?_ (hrest.cons ha' (fun hh => honce (hholds.mp hh)))
  rw [howner, holding_cons, holding_cons, hholds]

theorem Activation.Sound.tail {stmt : Stmt σ ℓ κ} {w : Option (κ × Bool)}
    (h : (Activation.mk (stmt :: rest) locals w).Sound underLock) :
    stmt.Tells underLock ∧ ∀ stmt' ∈ rest, stmt'.Tells underLock :=
  ⟨h.tells stmt List.mem_cons_self, fun stmt' hmem => h.tells stmt' (List.mem_cons_of_mem _ hmem)⟩

theorem System.Sound.take (h : s.Sound underLock) {a a' : Activation σ ℓ κ}
    (htop : s.frames t = a :: stack) (hfree : s.owner = none) (ha' : a'.Sound underLock)
    (hholds : a'.Holds) :
    System.Sound underLock
      ⟨s.object, some t, Function.update s.frames t (a' :: stack), s.log⟩ := by
  have howner := h.owner t
  rw [htop] at howner
  obtain ⟨-, -, hbelow⟩ := h.top htop
  have hnone : ¬ Holding stack := fun hholding => by
    have := howner.mpr (holding_cons.mpr (.inr hholding))
    rw [hfree] at this
    cases this
  refine h.put s.object s.log (fun t' ht => ?_) ?_ (hbelow.cons ha' (fun _ => hnone))
  · rw [hfree]
    simp [Ne.symm ht]
  · simp only [true_iff]
    exact holding_cons.mpr (.inl hholds)

theorem System.Sound.give (h : s.Sound underLock) (object : σ) (log : List (κ × Bool))
    {a a' : Activation σ ℓ κ} (htop : s.frames t = a :: stack) (hholds : a.Holds)
    (ha' : a'.Sound underLock) (hgives : ¬ a'.Holds) :
    System.Sound underLock ⟨object, none, Function.update s.frames t (a' :: stack), log⟩ := by
  have howns := h.owner_eq htop hholds
  obtain ⟨-, honce, hbelow⟩ := h.top htop
  refine h.put object log (fun t' ht => ?_) ?_ (hbelow.cons ha' (fun hh => absurd hh hgives))
  · rw [howns]
    simp [Ne.symm ht]
  · rw [holding_cons_of_not hgives]
    exact iff_of_false nofun (honce hholds)

theorem System.Sound.leave (h : s.Sound underLock) {a : Activation σ ℓ κ}
    (htop : s.frames t = a :: stack) (hdone : ¬ a.Holds) : (s.put t stack).Sound underLock := by
  have howner := h.owner t
  rw [htop] at howner
  obtain ⟨-, -, hbelow⟩ := h.top htop
  refine h.put s.object s.log (fun t' _ => Iff.rfl) ?_ hbelow
  rwa [holding_cons_of_not hdone] at howner

theorem System.Sound.exec (h : s.Sound underLock)
    (htop : s.frames t = ⟨rest, locals, none⟩ :: stack) :
    (exec s t locals stack rest).Sound underLock := by
  obtain ⟨ha, -, -⟩ := h.top htop
  obtain ⟨held, hdisc⟩ := ha.disciplined
  cases rest with
  | nil => exact h.leave htop fun hholds => Bool.noConfusion hholds
  | cons stmt rest =>
    obtain ⟨hstmt, htells⟩ := ha.tail
    cases stmt with
    | lock =>
      rw [LockedCalls.exec]
      split_ifs with hfree
      · exact h.take htop hfree (.running hdisc.2 htells locals) hdisc.2
      · exact h
    | unlock =>
      obtain ⟨rfl, hdisc⟩ := hdisc
      exact h.give s.object s.log htop ⟨rfl, hdisc⟩ (.running hdisc htells locals)
        (hdisc.not_holds locals none)
    | update f =>
      have hrest : Disciplined held rest := hdisc
      exact h.replace _ _ htop (.running hrest htells _) Iff.rfl
    | callHolding f =>
      obtain ⟨rfl, hdisc⟩ := hdisc
      have howns : s.owner = some t := h.owner_eq htop ⟨rfl, hdisc⟩
      refine h.replace _ _ htop ⟨⟨true, hdisc⟩, htells, ?_, ?_⟩ ⟨fun _ => ⟨rfl, hdisc⟩, fun _ => hdisc⟩
      · intro k hwait
        obtain ⟨k', hk', hpair⟩ := Option.map_eq_some_iff.mp hwait
        obtain ⟨rfl, -⟩ := Prod.mk.inj hpair
        exact ⟨hdisc, hstmt _ _ _ hk'⟩
      · intro k hwait
        obtain ⟨k', hk', hpair⟩ := Option.map_eq_some_iff.mp hwait
        simp [howns] at hpair
    | callReleased f =>
      obtain ⟨rfl, hdisc⟩ := hdisc
      rw [LockedCalls.exec]
      cases htold : (f s.object).2 with
      | none =>
        exact h.replace _ _ htop (.running hdisc htells _) ⟨fun _ => ⟨rfl, hdisc⟩, fun _ => hdisc⟩
      | some k =>
        have hrelocks : Disciplined false (.lock :: rest) := ⟨rfl, hdisc⟩
        refine h.give _ _ htop ⟨rfl, hdisc⟩ ⟨⟨false, hrelocks⟩, ?_, nofun, ?_⟩
          (hrelocks.not_holds locals (some (k, false)))
        · exact List.forall_mem_cons.mpr ⟨trivial, htells⟩
        · intro k' hwait
          obtain rfl : k = k' := (Prod.mk.inj (Option.some.inj hwait)).1
          exact ⟨⟨rest, rfl⟩, hstmt _ _ htold⟩

variable (body : μ → Body σ ℓ κ) (init : ℓ)

theorem System.Sound.step (hbody : ∀ m, Disciplined false (body m))
    (htells : ∀ m, ∀ stmt ∈ body m, stmt.Tells underLock) (h : s.Sound underLock)
    (e : Event T μ) : (step body init s e).Sound underLock := by
  obtain hs | ⟨t, m, -, -, hs⟩ | ⟨t, rest, locals, stack, -, htop, hs⟩ |
      ⟨t, rest, rest', locals, stack, k, locked, htop, hrest, hs⟩ := step_cases body init s e
  · rwa [hs]
  · rw [hs]
    have hfresh := (hbody m).not_holds init none
    refine h.put _ _ (fun _ _ => Iff.rfl) ?_ ((h.stack t).cons (.running (hbody m) (htells m) init)
      (fun hholds => absurd hholds hfresh))
    rw [holding_cons_of_not hfresh]
    exact h.owner t
  · rw [hs]
    exact h.exec htop
  · rw [hs]
    obtain ⟨ha, -, -⟩ := h.top htop
    obtain ⟨held, hdisc⟩ := ha.disciplined
    rcases hrest with rfl | ⟨rfl, rfl⟩
    · exact h.replace _ _ htop (.running hdisc ha.tells locals) Iff.rfl
    · have hunlocks : Disciplined true [(.unlock : Stmt σ ℓ κ)] := ⟨rfl, rfl⟩
      refine h.replace _ _ htop (.running hunlocks ?_ locals) ?_
      · intro stmt hmem
        rw [List.mem_singleton.mp hmem]
        trivial
      · exact iff_of_true hunlocks (ha.holding k rfl).1

def System.Idle (s : System T σ ℓ κ) : Prop := s.owner = none ∧ ∀ t, s.frames t = []

omit [DecidableEq T] in
theorem System.Idle.sound (h : s.Idle) : s.Sound underLock := by
  obtain ⟨howner, hstacks⟩ := h
  constructor
  · intro t
    rw [howner, hstacks t]
    simp [Holding]
  · intro t
    rw [hstacks t]
    exact .nil underLock

theorem run_sound (hbody : ∀ m, Disciplined false (body m))
    (htells : ∀ m, ∀ stmt ∈ body m, stmt.Tells underLock) (h : s.Idle) (events : List (Event T μ)) :
    (run (step body init) s events).Sound underLock :=
  run_invariant _ _ (fun _ e hs => hs.step body init hbody htells e) h.sound events

omit [DecidableEq T] in
theorem System.Sound.inside_iff (h : s.Sound underLock) {k : κ} {locked : Bool}
    (hin : s.Inside t k locked) : (locked = true ↔ underLock k) ∧ (locked = true → s.owner = some t) := by
  obtain ⟨rest, locals, stack, htop⟩ := hin
  obtain ⟨ha, -, -⟩ := h.top htop
  cases locked with
  | true =>
    obtain ⟨hholds, hk⟩ := ha.holding k rfl
    exact ⟨iff_of_true rfl hk, fun _ => h.owner_eq htop hholds⟩
  | false => exact ⟨iff_of_false nofun (ha.released k rfl).2, nofun⟩

end Soundness

end Lib.LockedCalls
