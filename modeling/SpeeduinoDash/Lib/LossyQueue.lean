import Mathlib.Data.List.Forall2
import SpeeduinoDash.Lib.Runs

set_option autoImplicit false

/-!
# A queue that loses messages

A source sends, a queue carries some of it and may be cut, a sink takes from the front. What the
sink has taken is part of what was sent, in its order; what is sent while nothing is lost arrives.
-/
namespace Lib.LossyQueue
open Lib.Runs

variable {α : Type*}

/-- `sent` and `taken` are logs. -/
structure Link (α : Type*) where
  sent : List α := []
  queue : List α := []
  taken : List α := []

inductive Op (α : Type*) where
  | send (a : α) (carried : Bool)
  | cut (kept : ℕ)
  | take

namespace Link

def step (s : Link α) : Op α → Link α
  | .send a carried =>
    { s with
      sent := s.sent ++ [a]
      queue := if carried then s.queue ++ [a] else s.queue }
  | .cut kept => { s with queue := s.queue.take kept }
  | .take => { s with queue := s.queue.tail, taken := s.taken ++ s.queue.head?.toList }

/-- All that the sink takes if nothing more happens to the queue. -/
def received (s : Link α) : List α := s.taken ++ s.queue

theorem received_take (s : Link α) : (s.step .take).received = s.received := by
  rcases s with ⟨sent, queue, taken⟩
  cases queue with
  | nil => simp [step, received]
  | cons a queue => simp [step, received]

theorem received_sublist_step (s : Link α) (op : Op α) (h : s.received.Sublist s.sent) :
    (s.step op).received.Sublist (s.step op).sent := by
  cases op with
  | send a carried =>
    cases carried with
    | false => exact h.trans (List.sublist_append_left _ _)
    | true =>
      have hlonger := h.append_right [a]
      rwa [received, List.append_assoc] at hlonger
  | cut kept => exact ((List.take_sublist kept s.queue).append_left s.taken).trans h
  | take =>
    rw [received_take]
    exact h

theorem received_sublist (s : Link α) (ops : List (Op α)) (h : s.received.Sublist s.sent) :
    (run step s ops).received.Sublist (run step s ops).sent :=
  run_invariant step (fun s => s.received.Sublist s.sent) received_sublist_step h ops

theorem run_sends (s : Link α) (items : List α) (carried : α → Bool) :
    run step s (items.map (fun a => .send a (carried a))) =
      { s with sent := s.sent ++ items, queue := s.queue ++ items.filter carried } := by
  induction items generalizing s with
  | nil => simp
  | cons a items ih =>
    rw [List.map_cons, run_cons, ih]
    cases hcarried : carried a <;> simp [step, hcarried]

end Link

def Op.keeps : Op α → Bool
  | .send _ carried => carried
  | .cut _ => false
  | .take => true

def Op.sends : Op α → List α
  | .send a _ => [a]
  | _ => []

namespace Link

theorem sent_run (s : Link α) (ops : List (Op α)) :
    (run step s ops).sent = s.sent ++ ops.flatMap Op.sends := by
  induction ops generalizing s with
  | nil => exact (List.append_nil _).symm
  | cons op ops ih =>
    have hstep : (s.step op).sent = s.sent ++ op.sends := by
      cases op <;> simp [step, Op.sends]
    rw [run_cons, ih, hstep, List.flatMap_cons, List.append_assoc]

theorem received_run (s : Link α) {ops : List (Op α)} (hkeeps : ∀ op ∈ ops, op.keeps = true) :
    (run step s ops).received = s.received ++ ops.flatMap Op.sends := by
  induction ops generalizing s with
  | nil => exact (List.append_nil _).symm
  | cons op ops ih =>
    have hstep : (s.step op).received = s.received ++ op.sends := by
      cases op with
      | send a carried =>
        have hcarried : carried = true := hkeeps _ List.mem_cons_self
        simp [step, received, Op.sends, hcarried]
      | cut kept => exact absurd (hkeeps _ List.mem_cons_self) Bool.false_ne_true
      | take => exact (received_take s).trans (List.append_nil _).symm
    rw [run_cons, ih _ (fun op hop => hkeeps op (List.mem_cons_of_mem _ hop)), hstep,
      List.flatMap_cons, List.append_assoc]

end Link

section Refinement

/-! A system with a link inside: each of its steps is some steps of the link. -/

variable {σ ι : Type*} {step : σ → ι → σ} {link : σ → Link α} {linkOps : σ → ι → List (Op α)}

theorem received_sublist_of_refines
    (hrefines : ∀ s i, link (step s i) = run Link.step (link s) (linkOps s i)) (s : σ)
    (ops : List ι) (h : (link s).received.Sublist (link s).sent) :
    (link (run step s ops)).received.Sublist (link (run step s ops)).sent := by
  refine run_invariant step (fun s => (link s).received.Sublist (link s).sent) ?_ h ops
  intro s i hs
  rw [hrefines]
  exact Link.received_sublist (link s) (linkOps s i) hs

theorem received_append_of_refines
    (hrefines : ∀ s i, link (step s i) = run Link.step (link s) (linkOps s i)) (s : σ)
    {ops : List ι} (hkeeps : ∀ s, ∀ i ∈ ops, ∀ op ∈ linkOps s i, op.keeps = true) :
    ∃ new, (link (run step s ops)).sent = (link s).sent ++ new ∧
      (link (run step s ops)).received = (link s).received ++ new := by
  induction ops generalizing s with
  | nil => exact ⟨[], (List.append_nil _).symm, (List.append_nil _).symm⟩
  | cons i ops ih =>
    have hsent := Link.sent_run (link s) (linkOps s i)
    have hreceived := Link.received_run (link s) (hkeeps s i List.mem_cons_self)
    rw [← hrefines] at hsent hreceived
    obtain ⟨new, hsent', hreceived'⟩ :=
      ih (step s i) (fun s j hj => hkeeps s j (List.mem_cons_of_mem i hj))
    refine ⟨(linkOps s i).flatMap Op.sends ++ new, ?_, ?_⟩
    · rw [run_cons, hsent', hsent, List.append_assoc]
    · rw [run_cons, hreceived', hreceived, List.append_assoc]

end Refinement

/-- What holds of each of some items, with a witness of its own, holds of each part of them. -/
theorem forall₂_sublist {β : Type*} {r : α → β → Prop} {xs : List α} {ys zs : List β}
    (h : List.Forall₂ r xs ys) (hpart : zs.Sublist ys) :
    ∃ ws, ws.Sublist xs ∧ List.Forall₂ r ws zs := by
  induction hpart generalizing xs with
  | slnil => exact ⟨[], List.nil_sublist xs, .nil⟩
  | cons y hpart ih =>
    cases h with
    | cons hxy hrest =>
      obtain ⟨ws, hws, hr⟩ := ih hrest
      exact ⟨ws, hws.cons _, hr⟩
  | cons_cons y hpart ih =>
    cases h with
    | cons hxy hrest =>
      obtain ⟨ws, hws, hr⟩ := ih hrest
      exact ⟨_ :: ws, hws.cons_cons _, .cons hxy hr⟩

structure Moments (ops : List α) (moments : List (List α)) : Prop where
  inRun : ∀ moment ∈ moments, moment <+: ops
  forward : moments.Pairwise (fun earlier later =>
    earlier <+: later ∧ earlier.length < later.length)

theorem Moments.sublist {ops : List α} {moments part : List (List α)}
    (h : Moments ops moments) (hpart : part.Sublist moments) : Moments ops part :=
  ⟨fun moment hmem => h.inRun moment (hpart.subset hmem), h.forward.sublist hpart⟩

theorem Moments.snoc {ops : List α} {moments : List (List α)} (h : Moments ops moments) (op : α) :
    Moments (ops ++ [op]) moments ∧ Moments (ops ++ [op]) (moments ++ [ops ++ [op]]) := by
  have hlonger : ops <+: ops ++ [op] := List.prefix_append ops [op]
  refine ⟨⟨fun moment hmem => (h.inRun moment hmem).trans hlonger, h.forward⟩, ?_, ?_⟩
  · intro moment hmem
    rcases List.mem_append.mp hmem with hmem | hmem
    · exact (h.inRun moment hmem).trans hlonger
    · exact (List.mem_singleton.mp hmem).symm ▸ List.prefix_refl _
  · refine List.pairwise_append.mpr ⟨h.forward, List.pairwise_singleton _ _, ?_⟩
    intro earlier hearlier later hlater
    rw [List.mem_singleton.mp hlater]
    have hearly := h.inRun earlier hearlier
    refine ⟨hearly.trans hlonger, Nat.lt_of_le_of_lt hearly.length_le ?_⟩
    rw [List.length_append, List.length_singleton]
    exact Nat.lt_succ_self _

end Lib.LossyQueue
