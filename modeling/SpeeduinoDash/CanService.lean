import Mathlib.Algebra.Order.Group.Int
import SpeeduinoDash.CommandPath
import SpeeduinoDash.CommandServer
import SpeeduinoDash.Freshness
import SpeeduinoDash.Lib.Cadence

set_option autoImplicit false

/-!
# The main loop of the CAN service

A turn receives at most one frame, serves at most one command and publishes when the interval has
passed. Clock readings are nanoseconds; the rate limiter reads its own clock in seconds.
-/
namespace SpeeduinoDash
open CanInterface CanParser Lib.Runs

structure LoopTurn (R : Type) where
  outcome : ReadOutcome
  receivedNs : ℕ
  parsedNs : ℕ
  commandTime : R
  pollSending : Bool
  write : KernelFrame → Bool
  nowNs : ℕ
  checkedNs : ℕ

/-- `written` holds the frames that the CAN socket has taken, `published` what has gone to the
    publisher, `warnings` counts the lines about lost CAN data. -/
structure CanService (R : Type) where
  iface : CanInterface
  parser : CanParser R := {}
  server : CommandServer R := {}
  publishInterval : ℕ
  canTimeoutMs : UInt32
  lastPublish : ℤ
  wasConnected : Bool := true
  written : List KernelFrame := []
  published : List EngineData := []
  warnings : ℕ := 0

namespace CanService

def defaultPublishRateHz : UInt32 := 50
def maxPublishRateHz : UInt32 := 1000

def safePublishRate (rateHz : UInt32) : UInt32 :=
  if rateHz = 0 then defaultPublishRateHz
  else if rateHz > maxPublishRateHz then maxPublishRateHz
  else rateHz

/-- In microseconds. -/
def intervalOf (rateHz : UInt32) : ℕ := 1000000 / (safePublishRate rateHz).toNat

theorem safePublishRate_bounds (rateHz : UInt32) :
    1 ≤ (safePublishRate rateHz).toNat ∧ (safePublishRate rateHz).toNat ≤ 1000 := by
  unfold safePublishRate
  split_ifs with hzero hlarge
  · decide
  · decide
  · rw [← UInt32.toNat_inj] at hzero
    have hle := UInt32.le_iff_toNat_le.mp (UInt32.not_lt.mp hlarge)
    exact ⟨Nat.pos_of_ne_zero hzero, hle⟩

theorem intervalOf_bounds (rateHz : UInt32) :
    1000 ≤ intervalOf rateHz ∧ intervalOf rateHz ≤ 1000000 := by
  obtain ⟨hpos, hle⟩ := safePublishRate_bounds rateHz
  refine ⟨?_, Nat.div_le_self _ _⟩
  rw [intervalOf, Nat.le_div_iff_mul_le hpos]
  omega

theorem socket_receive (iface : CanInterface) (outcome : ReadOutcome) (clockMs : ℕ) :
    (iface.receive outcome clockMs).2.socket = iface.socket ∧
      (iface.receive outcome clockMs).2.txCount = iface.txCount := by
  unfold CanInterface.receive
  split_ifs
  · exact ⟨rfl, rfl⟩
  · cases outcome <;> exact ⟨rfl, rfl⟩

variable {R : Type}

section Receive

variable [OfScientific R] [Add R] [Mul R] [NatCast R] [IntCast R]
variable [Neg R] [LT R] [DecidableLT R] [Truncate R]

def receiveFrame (s : CanService R) (t : LoopTurn R) : CanService R :=
  match s.iface.receive t.outcome (t.receivedNs / 1000000) with
  | (none, iface) => { s with iface := iface }
  | (some frame, iface) =>
    { s with iface := iface, parser := s.parser.parseFrame frame (t.parsedNs / 1000000) }

theorem receiveFrame_server (s : CanService R) (t : LoopTurn R) :
    (s.receiveFrame t).server = s.server ∧ (s.receiveFrame t).written = s.written ∧
      (s.receiveFrame t).iface.socket = s.iface.socket ∧
      (s.receiveFrame t).iface.txCount = s.iface.txCount := by
  obtain ⟨hsocket, htx⟩ := socket_receive s.iface t.outcome (t.receivedNs / 1000000)
  unfold receiveFrame
  cases hreceive : s.iface.receive t.outcome (t.receivedNs / 1000000) with
  | mk received iface =>
    rw [hreceive] at hsocket htx
    cases received <;> exact ⟨rfl, rfl, hsocket, htx⟩

end Receive

def publishData (s : CanService R) (t : LoopTurn R) : CanService R :=
  if (s.publishInterval * 1000 : ℕ) ≤ (t.nowNs : ℤ) - s.lastPublish then
    let isFresh := s.parser.isDataFresh s.canTimeoutMs (t.checkedNs / 1000000)
    { s with
      lastPublish := t.nowNs
      published := s.published ++ [s.parser.publishedData s.canTimeoutMs (t.checkedNs / 1000000)]
      warnings := if !isFresh && s.wasConnected then s.warnings + 1 else s.warnings
      wasConnected := isFresh }
  else s

theorem publishData_server (s : CanService R) (t : LoopTurn R) :
    (s.publishData t).server = s.server ∧ (s.publishData t).written = s.written ∧
      (s.publishData t).iface = s.iface := by
  unfold publishData
  split_ifs <;> exact ⟨rfl, rfl, rfl⟩

section Commands

variable [NatCast R] [Add R] [Sub R] [Mul R] [Min R] [One R] [LE R] [DecidableLE R]
variable (unpack : List UInt8 → Option CanCommand)

def serverTurn (s : CanService R) (t : LoopTurn R) : Turn R where
  now := t.commandTime
  interface := fun frame => (s.iface.send frame t.write).sent
  pollSending := t.pollSending

def handedFrame (s : CanService R) (t : LoopTurn R) : Option CanFrame :=
  (CommandServer.receiveCommand unpack s.server.socket t.pollSending).1.bind
    (fun cmd => (s.server.writer.send (CommandServer.sendCall cmd (s.serverTurn t))).handed)

def serveCommand (s : CanService R) (t : LoopTurn R) : CanService R :=
  let sent := (s.handedFrame unpack t).map (fun frame => s.iface.send frame t.write)
  { s with
    server := s.server.handleCommands unpack (s.serverTurn t)
    iface := (sent.map SendReport.iface).getD s.iface
    written := s.written ++ (sent.bind SendReport.written).toList }

end Commands

inductive Op (R : Type) where
  | arrive (message : List UInt8)
  | turn (t : LoopTurn R)

variable [OfScientific R] [Add R] [Mul R] [NatCast R] [IntCast R] [Neg R] [LT R] [DecidableLT R]
variable [Truncate R] [Sub R] [Min R] [One R] [LE R] [DecidableLE R]
variable (unpack : List UInt8 → Option CanCommand)

def takeTurn (s : CanService R) (t : LoopTurn R) : CanService R :=
  ((s.receiveFrame t).serveCommand unpack t).publishData t

def step (s : CanService R) : Op R → CanService R
  | .arrive message =>
    { s with server := { s.server with socket := s.server.socket.arrive message } }
  | .turn t => s.takeTurn unpack t

def started (system : SystemConfig) (allowed : List CanCommandDef) (table : SignalTable R)
    (fd startNs : ℕ) (startTime : R) : CanService R where
  iface := { socket := fd }
  parser := ({} : CanParser R).loadSignals table
  server := { writer := ({} : CanWriter R).loadAllowedCommands allowed startTime }
  publishInterval := intervalOf system.zmqPublishRateHz
  canTimeoutMs := system.canTimeoutMs
  lastPublish := startNs

end CanService

end SpeeduinoDash
