import SpeeduinoDash.Lib.Runs

set_option autoImplicit false

/-!
# Following a value by its announced changes

A source announces its value when it changes. What it announces before the follower subscribes
is lost, the rest is delivered in order. `agrees_iff` says when the follower's copy is right.
-/
namespace Lib.Follower
open Lib.Runs

variable {σ ε α : Type*}

/-- `queue` holds what was announced to the follower and not yet delivered. -/
structure System (σ α : Type*) where
  source : σ
  subscribed : Bool
  queue : List α
  copy : α

inductive Op (ε : Type*) where
  | change (e : ε)
  | subscribe
  | deliver

variable (react : σ → ε → σ × Option α)

def step (s : System σ α) : Op ε → System σ α
  | .change e =>
    { s with
      source := (react s.source e).1
      queue := if s.subscribed then s.queue ++ (react s.source e).2.toList else s.queue }
  | .subscribe => { s with subscribed := true }
  | .deliver => { s with queue := s.queue.tail, copy := s.queue.head?.getD s.copy }

def announced (s : σ) : List (Op ε) → List α
  | [] => []
  | .change e :: ops => (react s e).2.toList ++ announced (react s e).1 ops
  | .subscribe :: ops => announced s ops
  | .deliver :: ops => announced s ops

/-- The source announces its new value with every change, and nothing else. -/
def Announces (value : σ → α) : Prop :=
  ∀ s e, value (react s e).1 = (react s e).2.getD (value s)

def System.eventual (s : System σ α) : α := s.queue.getLast?.getD s.copy

theorem getLast?_append_getD (xs ys : List α) (a : α) :
    (xs ++ ys).getLast?.getD a = ys.getLast?.getD (xs.getLast?.getD a) := by
  rw [List.getLast?_append]
  cases ys.getLast? <;> rfl

theorem eventual_deliver (s : System σ α) : (step react s .deliver).eventual = s.eventual := by
  change s.queue.tail.getLast?.getD (s.queue.head?.getD s.copy) = s.queue.getLast?.getD s.copy
  cases s.queue with
  | nil => rfl
  | cons a queue => exact (getLast?_append_getD [a] queue s.copy).symm

theorem subscribed_step (s : System σ α) (op : Op ε) (h : s.subscribed = true) :
    (step react s op).subscribed = true := by
  cases op with
  | change e => exact h
  | subscribe => rfl
  | deliver => exact h

theorem run_eventual (s : System σ α) (ops : List (Op ε)) (h : s.subscribed = true) :
    (run (step react) s ops).eventual =
      (announced react s.source ops).getLast?.getD s.eventual := by
  induction ops generalizing s with
  | nil => rfl
  | cons op ops ih =>
    rw [run_cons, ih _ (subscribed_step react s op h)]
    cases op with
    | change e =>
      rw [announced, getLast?_append_getD]
      congr 1
      change (if s.subscribed then s.queue ++ (react s.source e).2.toList
        else s.queue).getLast?.getD s.copy = _
      rw [if_pos h, getLast?_append_getD]
      rfl
    | subscribe => rfl
    | deliver => rw [eventual_deliver, announced]; rfl

theorem run_value {value : σ → α} (hvalue : Announces react value) (s : System σ α)
    (ops : List (Op ε)) : value (run (step react) s ops).source =
      (announced react s.source ops).getLast?.getD (value s.source) := by
  induction ops generalizing s with
  | nil => rfl
  | cons op ops ih =>
    rw [run_cons, ih]
    cases op with
    | change e =>
      rw [announced, getLast?_append_getD]
      congr 1
      change value (react s.source e).1 = _
      rw [hvalue]
      cases (react s.source e).2 <;> rfl
    | subscribe => rfl
    | deliver => rfl

theorem run_unsubscribed (s : System σ α) (ops : List (Op ε)) (h : Op.subscribe ∉ ops)
    (hs : s.subscribed = false) (hqueue : s.queue = []) :
    (run (step react) s ops).subscribed = false ∧ (run (step react) s ops).queue = [] ∧
      (run (step react) s ops).copy = s.copy := by
  induction ops generalizing s with
  | nil => exact ⟨hs, hqueue, rfl⟩
  | cons op ops ih =>
    have hops : Op.subscribe ∉ ops := fun hmem => h (List.mem_cons_of_mem op hmem)
    rw [run_cons]
    cases op with
    | change e => exact ih (step react s (.change e)) hops hs (by simp [step, hs, hqueue])
    | subscribe => exact absurd List.mem_cons_self h
    | deliver =>
      obtain ⟨hs', hqueue', hcopy⟩ := ih (step react s .deliver) hops hs (by simp [step, hqueue])
      refine ⟨hs', hqueue', ?_⟩
      rw [hcopy]
      simp [step, hqueue]

/-- With everything delivered, the follower is right exactly if its initial copy was right when
    it subscribed or something has been announced since. -/
theorem agrees_iff {value : σ → α} (hvalue : Announces react value) (s : System σ α)
    (hs : s.subscribed = false) (hqueue : s.queue = []) (before after : List (Op ε))
    (hbefore : Op.subscribe ∉ before)
    (hquiet : (run (step react) s (before ++ .subscribe :: after)).queue = []) :
    (run (step react) s (before ++ .subscribe :: after)).copy =
        value (run (step react) s (before ++ .subscribe :: after)).source ↔
      s.copy = value (run (step react) s before).source ∨
        announced react (run (step react) s before).source after ≠ [] := by
  have hsplit : run (step react) s (before ++ .subscribe :: after) =
      run (step react) (step react (run (step react) s before) .subscribe) after := by
    rw [run_append, run_cons]
  rw [hsplit] at hquiet ⊢
  obtain ⟨-, hqueue', hcopy⟩ := run_unsubscribed react s before hbefore hs hqueue
  have heventual := run_eventual react (step react (run (step react) s before) .subscribe) after rfl
  have hinitial : (step react (run (step react) s before) .subscribe).eventual = s.copy := by
    change (run (step react) s before).queue.getLast?.getD (run (step react) s before).copy = _
    rw [hqueue', hcopy]
    rfl
  rw [hinitial, System.eventual, hquiet] at heventual
  change _ = (announced react (run (step react) s before).source after).getLast?.getD _ at heventual
  rw [run_value react hvalue]
  change _ = (announced react (run (step react) s before).source after).getLast?.getD
    (value (run (step react) s before).source) ↔ _
  change System.copy _ = _ at heventual
  rw [heventual]
  cases hlast : announced react (run (step react) s before).source after with
  | nil => simp
  | cons a rest =>
    rw [List.getLast?_cons]
    simp

end Lib.Follower
