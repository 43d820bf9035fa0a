import Mathlib.Data.List.Chain
import Mathlib.Logic.Function.Basic
import SpeeduinoDash.Lib.Runs

set_option autoImplicit false

/-!
# Objects that give up their lock around callbacks

An operation runs in locked sections. Between two of them it has released the lock to call back:
first the notification is out but not yet delivered, then the callback runs, and may itself call
the object, and then the operation goes on. Callers interleave at these points only, and each
caller has a stack of operations it is inside of.
-/
namespace Lib.Monitor
open Lib.Runs

variable {C σ ω ν κ : Type*}

/-- A section leaves the object in a new state and ends the operation, or stops it at a
    notification with the rest of the operation to come. -/
structure Sections (σ ω ν κ : Type*) where
  start : ω → σ → σ × Option (ν × κ)
  resume : κ → σ → σ × Option (ν × κ)

/-- `undelivered` is the notification until the callback is entered. -/
structure Frame (ν κ : Type*) where
  undelivered : Option ν
  rest : κ

inductive Event (ω ν : Type*) where
  | called (op : ω)
  | notified (n : ν)

def Event.note : Event ω ν → Option ν
  | .called _ => none
  | .notified n => some n

structure System (C σ ω ν κ : Type*) where
  object : σ
  frames : C → List (Frame ν κ) := fun _ => []
  log : List (Event ω ν) := []

inductive Step (C ω : Type*) where
  | call (c : C) (op : ω)
  | deliver (c : C)
  | resume (c : C)

def push (stop : Option (ν × κ)) (stack : List (Frame ν κ)) : List (Frame ν κ) :=
  match stop with
  | none => stack
  | some (n, k) => ⟨some n, k⟩ :: stack

/-- A caller whose callback is not entered yet can do nothing else. -/
def busy : List (Frame ν κ) → Bool
  | [] => false
  | frame :: _ => frame.undelivered.isSome

def System.Quiescent (s : System C σ ω ν κ) : Prop := ∀ c, s.frames c = []

def notices (log : List (Event ω ν)) : List ν := log.filterMap Event.note

theorem notices_append (xs ys : List (Event ω ν)) :
    notices (xs ++ ys) = notices xs ++ notices ys := List.filterMap_append

variable [DecidableEq C] (m : Sections σ ω ν κ)

def step (s : System C σ ω ν κ) : Step C ω → System C σ ω ν κ
  | .call c op =>
    if busy (s.frames c) then s
    else
      { object := (m.start op s.object).1
        frames := Function.update s.frames c (push (m.start op s.object).2 (s.frames c))
        log := s.log ++ [.called op] }
  | .deliver c =>
    match s.frames c with
    | ⟨some n, k⟩ :: stack =>
      { s with
        frames := Function.update s.frames c (⟨none, k⟩ :: stack)
        log := s.log ++ [.notified n] }
    | _ => s
  | .resume c =>
    match s.frames c with
    | ⟨none, k⟩ :: stack =>
      { s with
        object := (m.resume k s.object).1
        frames := Function.update s.frames c (push (m.resume k s.object).2 stack) }
    | _ => s

/-- Everything a step can do: nothing, the first section of an operation, the delivery of a
    notification, or the next section of an operation. -/
theorem step_cases (s : System C σ ω ν κ) (e : Step C ω) :
    step m s e = s ∨
    (∃ c op, e = .call c op ∧ busy (s.frames c) = false ∧ step m s e =
      ⟨(m.start op s.object).1,
        Function.update s.frames c (push (m.start op s.object).2 (s.frames c)),
        s.log ++ [.called op]⟩) ∨
    (∃ c n k stack, s.frames c = ⟨some n, k⟩ :: stack ∧ step m s e =
      ⟨s.object, Function.update s.frames c (⟨none, k⟩ :: stack), s.log ++ [.notified n]⟩) ∨
    (∃ c k stack, e = .resume c ∧ s.frames c = ⟨none, k⟩ :: stack ∧ step m s e =
      ⟨(m.resume k s.object).1,
        Function.update s.frames c (push (m.resume k s.object).2 stack), s.log⟩) := by
  cases e with
  | call c op =>
    cases hbusy : busy (s.frames c) with
    | true => exact .inl (by simp [step, hbusy])
    | false => exact .inr (.inl ⟨c, op, rfl, hbusy, by simp [step, hbusy]⟩)
  | deliver c =>
    cases hstack : s.frames c with
    | nil => exact .inl (by simp [step, hstack])
    | cons frame stack =>
      obtain ⟨_ | n, k⟩ := frame
      · exact .inl (by simp [step, hstack])
      · exact .inr (.inr (.inl ⟨c, n, k, stack, hstack, by simp [step, hstack]⟩))
  | resume c =>
    cases hstack : s.frames c with
    | nil => exact .inl (by simp [step, hstack])
    | cons frame stack =>
      obtain ⟨_ | n, k⟩ := frame
      · exact .inr (.inr (.inr ⟨c, k, stack, rfl, hstack, by simp [step, hstack]⟩))
      · exact .inl (by simp [step, hstack])

def note (stop : Option (ν × κ)) : List (Event ω ν) := stop.toList.map (fun p => .notified p.1)

/-- An operation whose first section is also its last, but for the callback, and that nobody
    interferes with. -/
theorem run_undisturbed {s : System C σ ω ν κ} {c : C} (hc : s.frames c = []) (op : ω)
    (hlast : ∀ n k, (m.start op s.object).2 = some (n, k) →
      m.resume k (m.start op s.object).1 = ((m.start op s.object).1, none)) :
    run (step m) s [.call c op, .deliver c, .resume c] =
      ⟨(m.start op s.object).1, s.frames, s.log ++ [.called op] ++ note (m.start op s.object).2⟩ := by
  have hsame : Function.update s.frames c [] = s.frames := by rw [← hc, Function.update_eq_self]
  cases hstop : (m.start op s.object).2 with
  | none => simp [step, hc, busy, hstop, push, hsame, note]
  | some stop =>
    obtain ⟨n, k⟩ := stop
    have hresume := hlast n k hstop
    simp [step, hc, busy, hstop, push, hresume, hsame, note]

section History

variable (allowed : ω → Prop)

def Calls (steps : List (Step C ω)) : Prop := ∀ c op, Step.call c op ∈ steps → allowed op

/-- What the object says about the operations called and the callbacks made so far. -/
theorem run_object (K : List (Event ω ν) → σ → Prop)
    (hstart : ∀ log x op, allowed op → K log x → K (log ++ [.called op]) (m.start op x).1)
    (hdeliver : ∀ log x n, K log x → K (log ++ [.notified n]) x)
    (hresume : ∀ log x k, K log x → K log (m.resume k x).1)
    {s : System C σ ω ν κ} (h : K s.log s.object) (steps : List (Step C ω))
    (hcalls : Calls allowed steps) :
    K (run (step m) s steps).log (run (step m) s steps).object := by
  induction steps generalizing s with
  | nil => exact h
  | cons e steps ih =>
    rw [run_cons]
    apply ih _ (fun c op hmem => hcalls c op (List.mem_cons_of_mem e hmem))
    obtain hs | ⟨c, op, rfl, -, hs⟩ | ⟨c, n, k, stack, -, hs⟩ | ⟨c, k, stack, -, -, hs⟩ :=
      step_cases m s e
    · rwa [hs]
    · rw [hs]
      exact hstart _ _ op (hcalls c op List.mem_cons_self) h
    · rw [hs]
      exact hdeliver _ _ n h
    · rw [hs]
      exact hresume _ _ k h

end History

section Debts

/-- A rest that owes will bring the object back in order when it goes on. -/
def Owes (owes : κ → Prop) (stop : Option (ν × κ)) : Prop := ∃ n k, stop = some (n, k) ∧ owes k

def System.Owed (owes : κ → Prop) (s : System C σ ω ν κ) : Prop :=
  ∃ c, ∃ frame ∈ s.frames c, owes frame.rest

theorem mem_push {stop : Option (ν × κ)} {stack : List (Frame ν κ)} {frame : Frame ν κ}
    (h : frame ∈ stack) : frame ∈ push stop stack := by
  cases stop with
  | none => exact h
  | some p => exact List.mem_cons_of_mem _ h

theorem owed_push {owes : κ → Prop} {stop : Option (ν × κ)} (h : Owes owes stop)
    (frames : C → List (Frame ν κ)) (c : C) (stack : List (Frame ν κ)) (x : σ)
    (log : List (Event ω ν)) :
    System.Owed owes ⟨x, Function.update frames c (push stop stack), log⟩ := by
  obtain ⟨n, k, rfl, hk⟩ := h
  refine ⟨c, ⟨some n, k⟩, ?_, hk⟩
  change _ ∈ Function.update frames c (push (some (n, k)) stack) c
  rw [Function.update_self]
  exact List.mem_cons_self

theorem owed_update {owes : κ → Prop} {s : System C σ ω ν κ} {c : C}
    {stack : List (Frame ν κ)} (x : σ) (log : List (Event ω ν)) (h : s.Owed owes)
    (hc : ∀ frame ∈ s.frames c, owes frame.rest → ∃ frame' ∈ stack, owes frame'.rest) :
    System.Owed owes ⟨x, Function.update s.frames c stack, log⟩ := by
  obtain ⟨c', frame, hmem, howes⟩ := h
  by_cases hcc : c' = c
  · subst hcc
    obtain ⟨frame', hmem', howes'⟩ := hc frame hmem howes
    refine ⟨c', frame', ?_, howes'⟩
    change frame' ∈ Function.update s.frames c' stack c'
    rwa [Function.update_self]
  · refine ⟨c', frame, ?_, howes⟩
    change frame ∈ Function.update s.frames c stack c'
    rwa [Function.update_of_ne hcc]

/-- In order, or somebody owes it: then an object nobody is working on is in order. `J` holds
    throughout. -/
theorem run_owed (I J : σ → Prop) (owes : κ → Prop)
    (hJstart : ∀ x op, J x → J (m.start op x).1) (hJresume : ∀ x k, J x → J (m.resume k x).1)
    (hstart : ∀ x op, J x → I x → I (m.start op x).1 ∨ Owes owes (m.start op x).2)
    (hresume : ∀ x k, J x → owes k ∨ I x → I (m.resume k x).1 ∨ Owes owes (m.resume k x).2)
    {s : System C σ ω ν κ} (hJ : J s.object) (hI : I s.object) (steps : List (Step C ω)) :
    I (run (step m) s steps).object ∨ (run (step m) s steps).Owed owes := by
  have hinv : J (run (step m) s steps).object ∧
      (I (run (step m) s steps).object ∨ (run (step m) s steps).Owed owes) := by
    refine run_invariant (step m) (fun s => J s.object ∧ (I s.object ∨ s.Owed owes)) ?_
      ⟨hJ, .inl hI⟩ steps
    rintro s e ⟨hJ, hI⟩
    obtain hs | ⟨c, op, -, -, hs⟩ | ⟨c, n, k, stack, hstack, hs⟩ | ⟨c, k, stack, -, hstack, hs⟩ :=
      step_cases m s e
    · rw [hs]
      exact ⟨hJ, hI⟩
    · rw [hs]
      refine ⟨hJstart _ op hJ, ?_⟩
      rcases hI with hI | howed
      · exact (hstart _ op hJ hI).imp_right (fun h => owed_push h _ _ _ _ _)
      · exact .inr (owed_update _ _ howed (fun frame hmem howes => ⟨frame, mem_push hmem, howes⟩))
    · rw [hs]
      refine ⟨hJ, hI.imp_right (fun howed => owed_update _ _ howed ?_)⟩
      intro frame hmem howes
      rw [hstack] at hmem
      rcases List.mem_cons.mp hmem with rfl | hmem
      · exact ⟨⟨none, k⟩, List.mem_cons_self, howes⟩
      · exact ⟨frame, List.mem_cons_of_mem _ hmem, howes⟩
    · rw [hs]
      refine ⟨hJresume _ k hJ, ?_⟩
      by_cases hk : owes k ∨ I s.object
      · exact (hresume _ k hJ hk).imp_right (fun h => owed_push h _ _ _ _ _)
      · refine .inr (owed_update _ _ (hI.resolve_left (fun h => hk (.inr h))) ?_)
        intro frame hmem howes
        rw [hstack] at hmem
        rcases List.mem_cons.mp hmem with rfl | hmem
        · exact absurd (.inl howes) hk
        · exact ⟨frame, mem_push hmem, howes⟩
  exact hinv.2

omit [DecidableEq C] in
theorem System.Quiescent.not_owed {owes : κ → Prop} {s : System C σ ω ν κ} (h : s.Quiescent) :
    ¬ s.Owed owes := by
  rintro ⟨c, frame, hmem, -⟩
  rw [h c] at hmem
  exact List.not_mem_nil hmem

end Debts

section SingleCaller

def undelivered (stack : List (Frame ν κ)) : List (Event ω ν) :=
  (stack.head?.bind Frame.undelivered).toList.map .notified

def System.announced (s : System Unit σ ω ν κ) : List (Event ω ν) :=
  s.log ++ undelivered (s.frames ())

theorem undelivered_of_not_busy {stack : List (Frame ν κ)} (h : busy stack = false) :
    (undelivered stack : List (Event ω ν)) = [] := by
  cases stack with
  | nil => rfl
  | cons frame stack =>
    have hnone : frame.undelivered = none := Option.not_isSome_iff_eq_none.mp (by simpa [busy] using h)
    simp [undelivered, hnone]

theorem undelivered_push (stop : Option (ν × κ)) {stack : List (Frame ν κ)}
    (h : busy stack = false) : (undelivered (push stop stack) : List (Event ω ν)) = note stop := by
  cases stop with
  | none => exact undelivered_of_not_busy h
  | some p => rfl

/-- Only the innermost operation of a single caller can have a notification out. -/
def Entered (stack : List (Frame ν κ)) : Prop :=
  ∀ frame ∈ stack.tail, frame.undelivered = none

theorem Entered.of_cons {frame : Frame ν κ} {stack : List (Frame ν κ)}
    (h : Entered (frame :: stack)) : busy stack = false ∧ Entered stack := by
  refine ⟨?_, fun frame' hmem => h frame' (List.mem_of_mem_tail hmem)⟩
  cases stack with
  | nil => rfl
  | cons frame' stack =>
    have hnone := h frame' List.mem_cons_self
    simp [busy, hnone]

theorem Entered.all {stack : List (Frame ν κ)} (h : Entered stack) (hbusy : busy stack = false) :
    ∀ frame ∈ stack, frame.undelivered = none := by
  cases stack with
  | nil => exact fun frame hmem => absurd hmem List.not_mem_nil
  | cons frame' stack =>
    intro frame hmem
    rcases List.mem_cons.mp hmem with rfl | hmem
    · exact Option.not_isSome_iff_eq_none.mp (by simpa [busy] using hbusy)
    · exact h frame hmem

theorem Entered.push {stack : List (Frame ν κ)} (h : Entered stack) (hbusy : busy stack = false)
    (stop : Option (ν × κ)) : Entered (push stop stack) := by
  cases stop with
  | none => exact h
  | some p => exact h.all hbusy

section Step

variable (m : Sections σ ω ν κ)

theorem entered_step {s : System Unit σ ω ν κ} (hs : Entered (s.frames ())) (e : Step Unit ω) :
    Entered ((step m s e).frames ()) := by
  obtain hstep | ⟨c, op, rfl, hbusy, hstep⟩ | ⟨c, n, k, stack, hstack, hstep⟩ |
      ⟨c, k, stack, -, hstack, hstep⟩ := step_cases m s e
  · rwa [hstep]
  · rw [hstep]
    dsimp only
    rw [Function.update_self]
    exact hs.push hbusy _
  · rw [hstep]
    dsimp only
    rw [Function.update_self]
    rw [hstack] at hs
    exact hs
  · rw [hstep]
    dsimp only
    rw [Function.update_self]
    rw [hstack] at hs
    obtain ⟨hbusy, htail⟩ := hs.of_cons
    exact htail.push hbusy _

theorem run_entered {s : System Unit σ ω ν κ} (hs : Entered (s.frames ()))
    (steps : List (Step Unit ω)) : Entered ((run (step m) s steps).frames ()) :=
  run_invariant (step m) (fun s => Entered (s.frames ())) (fun _ e h => entered_step m h e) hs steps

variable (allowed : ω → Prop) (K : List (Event ω ν) → σ → Prop)

theorem announced_step
    (hstart : ∀ log x op, allowed op → K log x →
      K (log ++ [.called op] ++ note (m.start op x).2) (m.start op x).1)
    (hresume : ∀ log x k, K log x → K (log ++ note (m.resume k x).2) (m.resume k x).1)
    {s : System Unit σ ω ν κ} (h : K s.announced s.object) (hs : Entered (s.frames ()))
    (e : Step Unit ω) (hcalls : ∀ c op, e = .call c op → allowed op) :
    K (step m s e).announced (step m s e).object := by
  obtain hstep | ⟨c, op, rfl, hbusy, hstep⟩ | ⟨c, n, k, stack, hstack, hstep⟩ |
      ⟨c, k, stack, -, hstack, hstep⟩ := step_cases m s e
  · rwa [hstep]
  · rw [hstep, System.announced]
    dsimp only
    rw [Function.update_self, undelivered_push _ hbusy]
    rw [System.announced, undelivered_of_not_busy hbusy, List.append_nil] at h
    exact hstart _ _ op (hcalls c op rfl) h
  · rw [hstep, System.announced]
    dsimp only
    rw [Function.update_self]
    rw [System.announced, hstack] at h
    simpa [undelivered] using h
  · rw [hstack] at hs
    rw [hstep, System.announced]
    dsimp only
    rw [Function.update_self, undelivered_push _ hs.of_cons.1]
    rw [System.announced, hstack] at h
    apply hresume
    simpa [undelivered] using h

/-- A single caller delivers a notification before it does anything else, so a fact about the
    object and the callbacks that each section keeps holds in the order of the callbacks. -/
theorem run_announced
    (hstart : ∀ log x op, allowed op → K log x →
      K (log ++ [.called op] ++ note (m.start op x).2) (m.start op x).1)
    (hresume : ∀ log x k, K log x → K (log ++ note (m.resume k x).2) (m.resume k x).1)
    {s : System Unit σ ω ν κ} (h : K s.announced s.object) (hs : Entered (s.frames ()))
    (steps : List (Step Unit ω)) (hcalls : Calls allowed steps) :
    K (run (step m) s steps).announced (run (step m) s steps).object := by
  induction steps generalizing s with
  | nil => exact h
  | cons e steps ih =>
    have h' := announced_step m allowed K hstart hresume h hs e
      (fun c op he => hcalls c op (he ▸ List.mem_cons_self))
    exact ih h' (entered_step m hs e) (fun c op hmem => hcalls c op (List.mem_cons_of_mem e hmem))

end Step

theorem System.Quiescent.announced_eq {s : System Unit σ ω ν κ} (h : s.Quiescent) :
    s.announced = s.log := by
  rw [System.announced, h ()]
  exact List.append_nil _

end SingleCaller

section Trail

/-- The changes of a value one after the other, from `first` to `last`. -/
structure Trail {α : Type*} (first : α) (changes : List (α × α)) (last : α) : Prop where
  start : ∀ c ∈ changes.head?, c.1 = first
  proper : ∀ c ∈ changes, c.1 ≠ c.2
  linked : changes.IsChain (fun c c' => c.2 = c'.1)
  ends : (changes.getLast?.map Prod.snd).getD first = last

variable {α : Type*} {first a b : α} {changes : List (α × α)}

theorem Trail.nil (first : α) : Trail first [] first :=
  ⟨by simp, by simp, List.isChain_nil, rfl⟩

theorem Trail.snoc (h : Trail first changes a) (hab : a ≠ b) :
    Trail first (changes ++ [(a, b)]) b := by
  refine ⟨?_, ?_, ?_, by simp⟩
  · cases changes with
    | nil =>
      intro c hc
      obtain rfl : (a, b) = c := Option.some.inj hc
      exact h.ends.symm
    | cons c changes => exact h.start
  · intro c hc
    rcases List.mem_append.mp hc with hc | hc
    · exact h.proper c hc
    · rw [List.mem_singleton.mp hc]
      exact hab
  · rw [List.isChain_append]
    refine ⟨h.linked, List.isChain_singleton _, ?_⟩
    intro c hc c' hc'
    obtain rfl : (a, b) = c' := Option.some.inj hc'
    have hends := h.ends
    rw [Option.mem_def.mp hc] at hends
    exact hends

theorem Trail.of_append {seen unseen : List (α × α)} (h : Trail first (seen ++ unseen) a) :
    Trail first seen ((seen.getLast?.map Prod.snd).getD first) := by
  refine ⟨?_, fun c hc => h.proper c (List.mem_append_left _ hc), ?_, rfl⟩
  · cases seen with
    | nil => simp
    | cons c seen => exact h.start
  · exact (List.isChain_append.mp h.linked).1

end Trail

end Lib.Monitor
