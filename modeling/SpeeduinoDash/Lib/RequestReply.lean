import SpeeduinoDash.Lib.Runs

set_option autoImplicit false

/-!
# A reply socket and the loop that serves it

The socket alternates: after a receive it is in the send state until a reply is sent, and a
receive in the send state fails. The loop takes one request at a time, and leaves a request it
cannot decode without a reply.
-/
namespace Lib.RequestReply
open Lib.Runs

variable {α β ρ σ ι : Type*}

inductive Exchange (β ρ : Type*) where
  | received (request : β)
  | replied (reply : ρ)

/-- `inbox` holds the requests in the order in which the socket hands them out, `log` what has
    passed through the socket. -/
structure Socket (β ρ : Type*) where
  inbox : List β := []
  replying : Bool := false
  log : List (Exchange β ρ) := []

namespace Socket

def arrive (s : Socket β ρ) (request : β) : Socket β ρ := { s with inbox := s.inbox ++ [request] }

def recv (s : Socket β ρ) : Option (β × Socket β ρ) :=
  if s.replying then none
  else match s.inbox with
    | [] => none
    | request :: inbox =>
      some (request, ⟨inbox, true, s.log ++ [.received request]⟩)

def send (s : Socket β ρ) (reply : ρ) : Option (Socket β ρ) :=
  if s.replying then some ⟨s.inbox, false, s.log ++ [.replied reply]⟩ else none

def exchanges (pairs : List (β × ρ)) : List (Exchange β ρ) :=
  pairs.flatMap (fun p => [.received p.1, .replied p.2])

/-- Every request taken has been answered once, before the next was taken. -/
def Answered (s : Socket β ρ) : Prop := ∃ pairs, s.log = exchanges pairs

/-- What the socket guarantees: at most the last request is open, and the flag tells. -/
def Alternates (s : Socket β ρ) : Prop :=
  ∃ pairs, s.replying = false ∧ s.log = exchanges pairs ∨
    s.replying = true ∧ ∃ request, s.log = exchanges pairs ++ [.received request]

theorem exchanges_snoc (pairs : List (β × ρ)) (request : β) (reply : ρ) :
    exchanges (pairs ++ [(request, reply)]) =
      exchanges pairs ++ [.received request] ++ [.replied reply] := by
  rw [exchanges, List.flatMap_append, List.append_assoc]
  rfl

theorem length_exchanges (pairs : List (β × ρ)) :
    (exchanges pairs).length = 2 * pairs.length := by
  induction pairs with
  | nil => rfl
  | cons p pairs ih =>
    change (exchanges pairs).length + 2 = 2 * (pairs.length + 1)
    omega

theorem Alternates.answered_iff {s : Socket β ρ} (h : s.Alternates) :
    s.Answered ↔ s.replying = false := by
  obtain ⟨pairs, ⟨hidle, hlog⟩ | ⟨hbusy, request, hlog⟩⟩ := h
  · exact iff_of_true ⟨pairs, hlog⟩ hidle
  · apply iff_of_false
    · rintro ⟨pairs', hlog'⟩
      have hlength := congrArg List.length (hlog.symm.trans hlog')
      rw [List.length_append, length_exchanges, length_exchanges, List.length_singleton] at hlength
      omega
    · rw [hbusy]
      exact Bool.noConfusion

end Socket

structure Server (σ β ρ : Type*) where
  state : σ
  socket : Socket β ρ := {}

inductive Op (ι β : Type*) where
  | arrive (request : β)
  | serve (i : ι)

section Loop

variable (decode : β → Option α) (handle : ι → σ → α → σ × ρ)

def serve (s : Server σ β ρ) (i : ι) : Server σ β ρ :=
  match s.socket.recv with
  | none => s
  | some (request, socket) =>
    match decode request with
    | none => { s with socket := socket }
    | some a =>
      ⟨(handle i s.state a).1, (socket.send (handle i s.state a).2).getD socket⟩

def step (s : Server σ β ρ) : Op ι β → Server σ β ρ
  | .arrive request => { s with socket := s.socket.arrive request }
  | .serve i => serve decode handle s i

/-- Everything one turn of the loop can do: nothing, answer the next request, or take one that
    does not decode and get stuck. -/
theorem serve_cases (s : Server σ β ρ) (i : ι) :
    ((s.socket.replying = true ∨ s.socket.inbox = []) ∧ serve decode handle s i = s) ∨
    (∃ request inbox a, s.socket.replying = false ∧ s.socket.inbox = request :: inbox ∧
      decode request = some a ∧ serve decode handle s i = ⟨(handle i s.state a).1,
        ⟨inbox, false, s.socket.log ++ [.received request] ++
          [.replied (handle i s.state a).2]⟩⟩) ∨
    (∃ request inbox, s.socket.replying = false ∧ s.socket.inbox = request :: inbox ∧
      decode request = none ∧ serve decode handle s i =
        ⟨s.state, ⟨inbox, true, s.socket.log ++ [.received request]⟩⟩) := by
  cases hbusy : s.socket.replying with
  | true => exact .inl ⟨.inl rfl, by simp [serve, Socket.recv, hbusy]⟩
  | false =>
    cases hinbox : s.socket.inbox with
    | nil => exact .inl ⟨.inr rfl, by simp [serve, Socket.recv, hbusy, hinbox]⟩
    | cons request inbox =>
      cases hdecode : decode request with
      | none =>
        refine .inr (.inr ⟨request, inbox, rfl, rfl, hdecode, ?_⟩)
        simp [serve, Socket.recv, hbusy, hinbox, hdecode]
      | some a =>
        refine .inr (.inl ⟨request, inbox, a, rfl, rfl, hdecode, ?_⟩)
        simp [serve, Socket.recv, Socket.send, hbusy, hinbox, hdecode]

theorem alternates_step (s : Server σ β ρ) (op : Op ι β) (h : s.socket.Alternates) :
    (step decode handle s op).socket.Alternates := by
  cases op with
  | arrive request => exact h
  | serve i =>
    change (serve decode handle s i).socket.Alternates
    obtain ⟨-, hs⟩ | ⟨request, inbox, a, hidle, -, -, hs⟩ | ⟨request, inbox, hidle, -, -, hs⟩ :=
      serve_cases decode handle s i
    · rwa [hs]
    · obtain ⟨pairs, hlog⟩ := h.answered_iff.mpr hidle
      refine ⟨pairs ++ [(request, (handle i s.state a).2)], .inl ⟨by rw [hs], ?_⟩⟩
      rw [hs, Socket.exchanges_snoc, ← hlog]
    · obtain ⟨pairs, hlog⟩ := h.answered_iff.mpr hidle
      exact ⟨pairs, .inr ⟨by rw [hs], request, by rw [hs, ← hlog]⟩⟩

theorem run_alternates (state : σ) (ops : List (Op ι β)) :
    (run (step decode handle) (⟨state, {}⟩ : Server σ β ρ) ops).socket.Alternates :=
  run_invariant (step decode handle) (fun s => s.socket.Alternates)
    (alternates_step decode handle) ⟨[], .inl ⟨rfl, rfl⟩⟩ ops

theorem stuck_run (s : Server σ β ρ) (ops : List (Op ι β)) (h : s.socket.replying = true) :
    (run (step decode handle) s ops).socket.replying = true ∧
      (run (step decode handle) s ops).socket.log = s.socket.log := by
  induction ops generalizing s with
  | nil => exact ⟨h, rfl⟩
  | cons op ops ih =>
    cases op with
    | arrive request => exact ih (step decode handle s (.arrive request)) h
    | serve i =>
      have hs : serve decode handle s i = s := by simp [serve, Socket.recv, h]
      rw [run_cons, step, hs]
      exact ih s h

def Decodes (state : σ) (ops : List (Op ι β)) : Prop :=
  ∀ pre i request inbox, pre ++ [.serve i] <+: ops →
    (run (step decode handle) (⟨state, {}⟩ : Server σ β ρ) pre).socket.inbox = request :: inbox →
    (decode request).isSome = true

theorem idle_of_decodes {state : σ} {ops : List (Op ι β)} (h : Decodes decode handle state ops) :
    (run (step decode handle) (⟨state, {}⟩ : Server σ β ρ) ops).socket.replying = false := by
  refine run_history (step decode handle) (fun _ s => s.socket.replying = false) rfl ops ?_
  intro pre op hp hidle
  cases op with
  | arrive request => exact hidle
  | serve i =>
    obtain ⟨-, hs⟩ | ⟨request, inbox, a, -, -, -, hs⟩ | ⟨request, inbox, -, hinbox, hnone, -⟩ :=
      serve_cases decode handle (run (step decode handle) (⟨state, {}⟩ : Server σ β ρ) pre) i
    · rw [step, hs]
      exact hidle
    · rw [step, hs]
    · have hsome := h pre i request inbox hp hinbox
      rw [hnone] at hsome
      cases hsome

/-- The loop answers every request it takes exactly if every request it finds decodes. -/
theorem answered_iff_decodes (state : σ) (ops : List (Op ι β)) :
    (∀ pre, pre <+: ops →
      (run (step decode handle) (⟨state, {}⟩ : Server σ β ρ) pre).socket.Answered) ↔
    Decodes decode handle state ops := by
  constructor
  · intro hanswered pre i request inbox hp hinbox
    have hidle := (run_alternates decode handle state pre).answered_iff.mp
      (hanswered pre ((List.prefix_append pre [.serve i]).trans hp))
    have hnext := (run_alternates decode handle state (pre ++ [.serve i])).answered_iff.mp
      (hanswered _ hp)
    rw [run_snoc, step] at hnext
    obtain ⟨hor, -⟩ | ⟨request', inbox', a, -, hinbox', hsome, -⟩ |
        ⟨request', inbox', -, -, -, hs⟩ :=
      serve_cases decode handle (run (step decode handle) (⟨state, {}⟩ : Server σ β ρ) pre) i
    · rw [hidle, hinbox] at hor
      simp at hor
    · rw [hinbox, List.cons.injEq] at hinbox'
      rw [hinbox'.1, hsome, Option.isSome_some]
    · rw [hs] at hnext
      cases hnext
  · intro h pre hp
    apply (run_alternates decode handle state pre).answered_iff.mpr
    apply idle_of_decodes
    intro pre' i request inbox hp' hinbox
    exact h pre' i request inbox (hp'.trans hp) hinbox

theorem silent_of_unanswered (state : σ) (ops later : List (Op ι β))
    (h : ¬ ∀ pre, pre <+: ops →
      (run (step decode handle) (⟨state, {}⟩ : Server σ β ρ) pre).socket.Answered) :
    (run (step decode handle) (⟨state, {}⟩ : Server σ β ρ) (ops ++ later)).socket.log =
      (run (step decode handle) (⟨state, {}⟩ : Server σ β ρ) ops).socket.log := by
  rw [run_append]
  refine (stuck_run decode handle _ later ?_).2
  push Not at h
  obtain ⟨pre, ⟨rest, rfl⟩, hnot⟩ := h
  rw [(run_alternates decode handle state pre).answered_iff, Bool.not_eq_false] at hnot
  rw [run_append]
  exact (stuck_run decode handle _ rest hnot).1

theorem drains (s : Server σ β ρ) (turns : List ι) (hidle : s.socket.replying = false)
    (hdecode : ∀ request ∈ s.socket.inbox, (decode request).isSome = true)
    (hturns : s.socket.inbox.length ≤ turns.length) :
    (run (step decode handle) s (turns.map .serve)).socket.inbox = [] ∧
      (run (step decode handle) s (turns.map .serve)).socket.replying = false := by
  induction turns generalizing s with
  | nil =>
    rw [List.length_nil, Nat.le_zero, List.length_eq_zero_iff] at hturns
    exact ⟨hturns, hidle⟩
  | cons i turns ih =>
    rw [List.length_cons] at hturns
    rw [List.map_cons, run_cons, step]
    obtain ⟨hor, hs⟩ | ⟨request, inbox, a, -, hinbox, -, hs⟩ |
        ⟨request, inbox, -, hinbox, hnone, -⟩ :=
      serve_cases decode handle s i
    · have hempty : s.socket.inbox = [] := by
        rcases hor with hbusy | hempty
        · rw [hidle] at hbusy
          cases hbusy
        · exact hempty
      rw [hs]
      apply ih s hidle hdecode
      rw [hempty]
      exact Nat.zero_le _
    · rw [hs]
      rw [hinbox] at hdecode hturns
      apply ih
      · rfl
      · intro request' hmem
        exact hdecode request' (List.mem_cons_of_mem request hmem)
      · rw [List.length_cons] at hturns
        exact Nat.le_of_succ_le_succ hturns
    · rw [hinbox] at hdecode
      have hsome := hdecode request List.mem_cons_self
      rw [hnone] at hsome
      cases hsome

end Loop

end Lib.RequestReply
