import Mathlib.Algebra.Field.Rat
import Mathlib.Algebra.Order.Ring.Rat
import SpeeduinoDash.CanWriter
import SpeeduinoDash.Lib.RequestReply
import SpeeduinoDash.Messages

set_option autoImplicit false

/-!
# The command server of the CAN service

One turn of the main loop polls the REP socket, decodes a request, hands it to the writer and
replies. `unpack` is what MessagePack makes of the bytes, `none` where it throws. On a socket in
the send state a poll may report anything, and a receive throws.
-/
namespace SpeeduinoDash
open Lib.RequestReply Lib.Runs

abbrev CommandSocket : Type := Socket (List UInt8) CanCommandResponse

/-- What a turn of the loop gets from outside: the clock, the CAN socket, and what a poll reports
    in the send state. -/
structure Turn (R : Type) where
  now : R
  interface : CanFrame → Bool
  pollSending : Bool := false

structure CommandServer (R : Type) where
  writer : CanWriter R := {}
  socket : CommandSocket := {}

namespace CommandServer

variable {R : Type} [NatCast R] [Add R] [Sub R] [Mul R] [Min R] [One R] [LE R] [DecidableLE R]
variable (unpack : List UInt8 → Option CanCommand)

def poll (socket : CommandSocket) (pollSending : Bool) : Bool :=
  if socket.replying then pollSending else !socket.inbox.isEmpty

/-- Exceptions of the receive and of the decoding end in the same catch. -/
def receiveCommand (socket : CommandSocket) (pollSending : Bool) :
    Option CanCommand × CommandSocket :=
  if poll socket pollSending then
    match socket.recv with
    | none => (none, socket)
    | some (message, socket') => (unpack message, socket')
  else (none, socket)

def sendResponse (socket : CommandSocket) (response : CanCommandResponse) : Bool × CommandSocket :=
  match socket.send response with
  | none => (false, socket)
  | some socket' => (true, socket')

def errorMessage : SendResult → String
  | .ok => "OK"
  | .blocked => "CAN ID not in whitelist"
  | .rateLimited => "Rate limit exceeded"
  | .canError => "CAN write failed"
  | .invalid => "Invalid parameters"

def responseTo (result : SendResult) : CanCommandResponse where
  success := result == .ok
  errorCode := result.code
  errorMessage := errorMessage result

def sendCall (cmd : CanCommand) (turn : Turn R) : SendCall R where
  canId := cmd.canId
  data := some (fun i => cmd.data[i]?.getD 0)
  dlc := cmd.dlc
  now := turn.now
  interface := turn.interface

def handleCommands (s : CommandServer R) (turn : Turn R) : CommandServer R :=
  match receiveCommand unpack s.socket turn.pollSending with
  | (none, socket) => { s with socket := socket }
  | (some cmd, socket) =>
    let report := s.writer.send (sendCall cmd turn)
    { writer := report.writer
      socket := (sendResponse socket (responseTo report.result)).2 }

abbrev Op (R : Type) : Type := Lib.RequestReply.Op (Turn R) (List UInt8)

def step (s : CommandServer R) : Op R → CommandServer R
  | .arrive message => { s with socket := s.socket.arrive message }
  | .serve turn => s.handleCommands unpack turn

def handle (turn : Turn R) (writer : CanWriter R) (cmd : CanCommand) :
    CanWriter R × CanCommandResponse :=
  ((writer.send (sendCall cmd turn)).writer, responseTo (writer.send (sendCall cmd turn)).result)

def toServer (s : CommandServer R) : Server (CanWriter R) (List UInt8) CanCommandResponse :=
  ⟨s.writer, s.socket⟩

/-- The main loop is the request-reply loop, whatever polls report in the send state. -/
theorem step_toServer (s : CommandServer R) (op : Op R) :
    (s.step unpack op).toServer = Lib.RequestReply.step unpack handle s.toServer op := by
  cases op with
  | arrive message => rfl
  | serve turn =>
    change (s.handleCommands unpack turn).toServer = serve unpack handle s.toServer turn
    cases hbusy : s.socket.replying with
    | true =>
      have hrecv : s.socket.recv = none := by simp [Socket.recv, hbusy]
      have hreceive : receiveCommand unpack s.socket turn.pollSending = (none, s.socket) := by
        rw [receiveCommand, hrecv]
        split <;> rfl
      simp [handleCommands, hreceive, serve, toServer, hrecv]
    | false =>
      cases hinbox : s.socket.inbox with
      | nil =>
        have hrecv : s.socket.recv = none := by simp [Socket.recv, hbusy, hinbox]
        simp [handleCommands, receiveCommand, poll, hbusy, hinbox, serve, toServer, hrecv]
      | cons message inbox =>
        have hrecv : s.socket.recv =
            some (message, ⟨inbox, true, s.socket.log ++ [.received message]⟩) := by
          simp [Socket.recv, hbusy, hinbox]
        have hreceive : receiveCommand unpack s.socket turn.pollSending =
            (unpack message, ⟨inbox, true, s.socket.log ++ [.received message]⟩) := by
          simp [receiveCommand, poll, hbusy, hinbox, hrecv]
        change s.toServer.socket.recv = _ at hrecv
        rw [handleCommands, hreceive, serve, hrecv]
        cases hunpack : unpack message with
        | none => simp [hunpack, toServer]
        | some cmd => simp [hunpack, toServer, sendResponse, Socket.send, handle]

theorem run_toServer (s : CommandServer R) (ops : List (Op R)) :
    (run (step unpack) s ops).toServer =
      run (Lib.RequestReply.step unpack handle) s.toServer ops := by
  induction ops generalizing s with
  | nil => rfl
  | cons op ops ih => rw [run_cons, ih, step_toServer, run_cons]

theorem run_socket (s : CommandServer R) (ops : List (Op R)) :
    (run (step unpack) s ops).socket =
      (run (Lib.RequestReply.step unpack handle) s.toServer ops).socket :=
  congrArg Server.socket (run_toServer unpack s ops)

/-- The server answers each request that it takes, before it takes the next, exactly in the runs
    in which every message it finds decodes. After the first one that does not, nothing is taken
    or answered again; without such a message, as many turns as there are requests answer all. -/
theorem answers_iff_decodes (writer : CanWriter R) (ops : List (Op R)) :
    let after (ops : List (Op R)) := run (step unpack) { writer := writer } ops
    ((∀ pre, pre <+: ops → (after pre).socket.Answered) ↔
      ∀ pre turn message inbox, pre ++ [.serve turn] <+: ops →
        (after pre).socket.inbox = message :: inbox → (unpack message).isSome = true) ∧
    ((¬ ∀ pre, pre <+: ops → (after pre).socket.Answered) →
      ∀ later, (after (ops ++ later)).socket.log = (after ops).socket.log) ∧
    ((∀ pre, pre <+: ops → (after pre).socket.Answered) → ∀ turns : List (Turn R),
      (∀ message ∈ (after ops).socket.inbox, (unpack message).isSome = true) →
      (after ops).socket.inbox.length ≤ turns.length →
      (after (ops ++ turns.map .serve)).socket.inbox = [] ∧
        (after (ops ++ turns.map .serve)).socket.Answered) := by
  intro after
  have hafter : ∀ ops, (after ops).socket = (run (Lib.RequestReply.step unpack handle)
      (⟨writer, {}⟩ : Server (CanWriter R) (List UInt8) CanCommandResponse) ops).socket :=
    fun ops => run_socket unpack { writer := writer } ops
  simp only [hafter]
  refine ⟨answered_iff_decodes unpack handle writer ops, ?_, ?_⟩
  · intro hunanswered later
    exact silent_of_unanswered unpack handle writer ops later hunanswered
  · intro hanswered turns hdecode hturns
    have halternates := run_alternates unpack handle writer ops
    have hidle := halternates.answered_iff.mp (hanswered ops (List.prefix_refl ops))
    have hdrains := drains unpack handle _ turns hidle hdecode hturns
    rw [← run_append] at hdrains
    refine ⟨hdrains.1, ?_⟩
    exact (run_alternates unpack handle writer _).answered_iff.mpr hdrains.2

theorem malformed_unanswered :
    ¬ ∀ (writer : CanWriter ℚ) (ops : List (Op ℚ)) (pre : List (Op ℚ)), pre <+: ops →
      (run (step CanCommand.codec.convert) { writer := writer } pre).socket.Answered := by
  intro hclaim
  have hanswered := hclaim {} [.arrive [], .serve { now := 0, interface := fun _ => true }] _
    (List.prefix_refl _)
  obtain ⟨pairs, hlog⟩ := hanswered
  have hlength := congrArg List.length hlog
  rw [Socket.length_exchanges] at hlength
  change 1 = 2 * pairs.length at hlength
  omega

end CommandServer

end SpeeduinoDash
