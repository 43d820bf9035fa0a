import SpeeduinoDash.Lib.Monitor

set_option autoImplicit false

/-!
# Listeners of a monitored object

A listener that hears of every change of a keyed value can rebuild the value from what it heard.
With several callers two notifications about one key may overtake each other, so a key has to
rest while a notification about it is out.
-/
namespace Lib.Monitor
open Lib.Runs

variable {C σ ω ν κ ι β : Type*}

/-- The notifications of a stack that are out but not delivered. -/
def waiting (stack : List (Frame ν κ)) : List ν := stack.filterMap Frame.undelivered

def System.Out (s : System C σ ω ν κ) (n : ν) : Prop := ∃ c, n ∈ waiting (s.frames c)

theorem mem_waiting_push (stop : Option (ν × κ)) (stack : List (Frame ν κ)) (n : ν) :
    n ∈ waiting (push stop stack) ↔ n ∈ waiting stack ∨ ∃ k, stop = some (n, k) := by
  obtain _ | ⟨n', k⟩ := stop
  · simp [push]
  · simp only [push, waiting, List.filterMap_cons, List.mem_cons, Option.some.injEq, Prod.mk.injEq]
    constructor
    · rintro (rfl | hmem)
      · exact .inr ⟨k, rfl, rfl⟩
      · exact .inl hmem
    · rintro (hmem | ⟨_, rfl, -⟩)
      · exact .inr hmem
      · exact .inl rfl

theorem System.Quiescent.not_out {s : System C σ ω ν κ} (h : s.Quiescent) (n : ν) : ¬ s.Out n := by
  rintro ⟨c, hmem⟩
  rw [h c] at hmem
  exact List.not_mem_nil hmem

section Update

variable [DecidableEq C]

theorem out_update {s : System C σ ω ν κ} {c : C} {stack : List (Frame ν κ)} {n : ν} {P : Prop}
    (x : σ) (log : List (Event ω ν)) (h : n ∈ waiting stack ↔ n ∈ waiting (s.frames c) ∨ P) :
    System.Out ⟨x, Function.update s.frames c stack, log⟩ n ↔ s.Out n ∨ P := by
  constructor
  · rintro ⟨c', hmem⟩
    change n ∈ waiting (Function.update s.frames c stack c') at hmem
    by_cases hc : c' = c
    · subst hc
      rw [Function.update_self] at hmem
      exact (h.mp hmem).imp_left (fun hold => ⟨c', hold⟩)
    · rw [Function.update_of_ne hc] at hmem
      exact .inl ⟨c', hmem⟩
  · intro hout
    have hself : n ∈ waiting stack →
        System.Out ⟨x, Function.update s.frames c stack, log⟩ n := by
      intro hmem
      refine ⟨c, ?_⟩
      change n ∈ waiting (Function.update s.frames c stack c)
      rwa [Function.update_self]
    rcases hout with ⟨c', hmem⟩ | hp
    · by_cases hc : c' = c
      · exact hself (h.mpr (.inl (hc ▸ hmem)))
      · refine ⟨c', ?_⟩
        change n ∈ waiting (Function.update s.frames c stack c')
        rwa [Function.update_of_ne hc]
    · exact hself (h.mpr (.inr hp))

end Update

/-- A single caller delivers a notification before it changes the object again. -/
theorem System.rests (m : Sections σ ω ν κ) {s : System Unit σ ω ν κ}
    (hs : Entered (s.frames ())) {n : ν} (hout : s.Out n) (e : Step Unit ω) :
    (step m s e).object = s.object := by
  have hidle : busy (s.frames ()) = false → ¬ s.Out n := by
    rintro hbusy ⟨c, hmem⟩
    obtain ⟨frame, hframe, hn⟩ := List.mem_filterMap.mp hmem
    have hnone : frame.undelivered = none := hs.all hbusy frame hframe
    rw [hnone] at hn
    cases hn
  obtain hstep | ⟨c, op, -, hbusy, -⟩ | ⟨c, n, k, stack, -, hstep⟩ | ⟨c, k, stack, -, hstack, -⟩ :=
    step_cases m s e
  · rw [hstep]
  · exact absurd hout (hidle hbusy)
  · rw [hstep]
  · refine absurd hout (hidle ?_)
    rw [hstack]
    rfl

section Heard

variable [DecidableEq ι] (value : σ → ι → β) (about : ν → Option (ι × β))

def hear (v : ι → β) (n : ν) : ι → β :=
  match about n with
  | none => v
  | some (i, b) => Function.update v i b

def heard (first : ι → β) (log : List (Event ω ν)) : ι → β := (notices log).foldl (hear about) first

theorem heard_called (first : ι → β) (log : List (Event ω ν)) (op : ω) :
    heard about first (log ++ [.called op]) = heard about first log := by
  rw [heard, notices_append]
  exact congrArg _ (List.append_nil _)

theorem heard_notified (first : ι → β) (log : List (Event ω ν)) (n : ν) :
    heard about first (log ++ [.notified n]) = hear about (heard about first log) n := by
  rw [heard, notices_append, List.foldl_append]
  rfl

/-- A section changes the value at most where it notifies of it, and to what it says. -/
def Honest (x : σ) (p : σ × Option (ν × κ)) : Prop :=
  (p.2.bind (fun stop => about stop.1) = none ∧ value p.1 = value x) ∨
    ∃ n k i b, p.2 = some (n, k) ∧ about n = some (i, b) ∧
      value p.1 = Function.update (value x) i b

/-- Every notification that is out is still true, and a key without one is known. -/
structure Heard (first : ι → β) (s : System C σ ω ν κ) : Prop where
  out : ∀ n i b, s.Out n → about n = some (i, b) → value s.object i = b
  known : ∀ i, (∀ n b, s.Out n → about n ≠ some (i, b)) →
    heard about first s.log i = value s.object i

variable {value about} {first : ι → β}

theorem Heard.of_quiescent {s : System C σ ω ν κ} (h : Heard value about first s)
    (hquiet : s.Quiescent) : heard about first s.log = value s.object := by
  funext i
  exact h.known i (fun n b hout => absurd hout (hquiet.not_out n))

/-- A section that is honest, and changes no value about which a notification is out. -/
theorem Heard.section {s : System C σ ω ν κ} (h : Heard value about first s)
    {p : σ × Option (ν × κ)} (hhonest : Honest value about s.object p) {s' : System C σ ω ν κ}
    (hobject : s'.object = p.1) (hlog : heard about first s'.log = heard about first s.log)
    (hout : ∀ n, s'.Out n ↔ s.Out n ∨ ∃ k, p.2 = some (n, k))
    (hrest : ∀ n i b, s.Out n → about n = some (i, b) → value p.1 i = value s.object i) :
    Heard value about first s' := by
  obtain ⟨hnone, hvalue⟩ | ⟨n', k', i', b', hstop, habout', hvalue⟩ := hhonest
  · have hsilent : ∀ n, (∃ k, p.2 = some (n, k)) → about n = none := by
      rintro n ⟨k, hstop⟩
      rw [hstop] at hnone
      exact hnone
    refine ⟨?_, ?_⟩
    · intro n i b hn habout
      rw [hobject, hvalue]
      rcases (hout n).mp hn with hold | hnew
      · exact h.out n i b hold habout
      · rw [hsilent n hnew] at habout
        cases habout
    · intro i hi
      rw [hobject, hvalue, hlog]
      exact h.known i (fun n b hold => hi n b ((hout n).mpr (.inl hold)))
  · have hn' : s'.Out n' := (hout n').mpr (.inr ⟨k', hstop⟩)
    refine ⟨?_, ?_⟩
    · intro n i b hn habout
      rw [hobject]
      rcases (hout n).mp hn with hold | ⟨k, hnew⟩
      · rw [hrest n i b hold habout]
        exact h.out n i b hold habout
      · rw [hstop] at hnew
        cases hnew
        rw [habout'] at habout
        cases habout
        rw [hvalue, Function.update_self]
    · intro i hi
      have hne : i ≠ i' := by
        rintro rfl
        exact hi n' b' hn' habout'
      rw [hobject, hvalue, Function.update_of_ne hne, hlog]
      exact h.known i (fun n b hold => hi n b ((hout n).mpr (.inl hold)))

/-- The listener hears of `n`: that is still true, and anything else that was out still is. -/
theorem Heard.deliver {s s' : System C σ ω ν κ} (h : Heard value about first s) {n : ν}
    (hn : s.Out n) (hobject : s'.object = s.object) (hlog : s'.log = s.log ++ [.notified n])
    (hout : ∀ n', n' ≠ n → (s'.Out n' ↔ s.Out n')) : Heard value about first s' := by
  refine ⟨?_, ?_⟩
  · intro n' i b hn' habout
    rw [hobject]
    by_cases hne : n' = n
    · exact h.out n i b hn (hne ▸ habout)
    · exact h.out n' i b ((hout n' hne).mp hn') habout
  · intro i hi
    rw [hobject, hlog, heard_notified, hear]
    have hknown : (∀ b, about n ≠ some (i, b)) → heard about first s.log i = value s.object i := by
      intro hother
      apply h.known i
      intro n' b hold habout
      by_cases hne : n' = n
      · exact hother b (hne ▸ habout)
      · exact hi n' b ((hout n' hne).mpr hold) habout
    cases habout : about n with
    | none => exact hknown (by simp [habout])
    | some p =>
      obtain ⟨i', b'⟩ := p
      by_cases hkey : i = i'
      · subst hkey
        dsimp only
        rw [Function.update_self, h.out n i b' hn habout]
      · dsimp only
        rw [Function.update_of_ne hkey]
        refine hknown ?_
        intro b hb
        rw [habout] at hb
        cases hb
        exact hkey rfl

variable [DecidableEq C] (m : Sections σ ω ν κ)

theorem Heard.step {s : System C σ ω ν κ} (h : Heard value about first s) (e : Step C ω)
    (hstart : ∀ c op, e = .call c op → Honest value about s.object (m.start op s.object))
    (hresume : ∀ k, Honest value about s.object (m.resume k s.object))
    (hrest : ∀ n i b, s.Out n → about n = some (i, b) →
      value (Monitor.step m s e).object i = value s.object i) :
    Heard value about first (Monitor.step m s e) := by
  obtain hs | ⟨c, op, he, hbusy, hs⟩ | ⟨c, n, k, stack, hstack, hs⟩ |
      ⟨c, k, stack, he, hstack, hs⟩ := step_cases m s e
  · rwa [hs]
  · rw [hs] at hrest ⊢
    exact h.section (hstart c op he) rfl (heard_called about first s.log op)
      (fun n => out_update _ _ (mem_waiting_push _ _ n)) hrest
  · have hwaiting : waiting (s.frames c) = n :: waiting stack := by
      rw [hstack]
      rfl
    rw [hs]
    refine h.deliver ⟨c, hwaiting ▸ List.mem_cons_self⟩ rfl rfl ?_
    intro n' hne
    have hless : n' ∈ waiting (⟨none, k⟩ :: stack) ↔ n' ∈ waiting (s.frames c) ∨ False := by
      rw [hwaiting, List.mem_cons, or_iff_right hne, or_false]
      rfl
    exact (out_update _ _ hless).trans (iff_of_eq (or_false _))
  · rw [hs] at hrest ⊢
    refine h.section (hresume k) rfl rfl (fun n => out_update _ _ ?_) hrest
    rw [mem_waiting_push, hstack]
    rfl

end Heard

end Lib.Monitor
