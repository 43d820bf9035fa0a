import Mathlib.Algebra.Group.Int.Defs
import Mathlib.Data.Vector.Defs
import SpeeduinoDash.Lib.CallsAlone

set_option autoImplicit false

/-!
# The CAN error handler

The methods are lists of statements, so that the lock and the callbacks stand where the code has
them. Times are ticks of the steady clock, one nanosecond each.
-/
namespace SpeeduinoDash
open Lib.LockedCalls Lib.Runs

inductive CanBusState where
  | errorActive
  | errorWarning
  | errorPassive
  | busOff
deriving DecidableEq

def canBusStateToString : CanBusState → String
  | .errorActive => "ErrorActive"
  | .errorWarning => "ErrorWarning"
  | .errorPassive => "ErrorPassive"
  | .busOff => "BusOff"

inductive CanErrorType where
  | none
  | txTimeout
  | arbitrationLost
  | controllerError
  | protocolViolation
  | transceiverError
  | noAck
  | busOff
  | busError
  | controllerRestarted
deriving DecidableEq

structure CanErrorCounters where
  txErrorCount : UInt8 := 0
  rxErrorCount : UInt8 := 0
deriving DecidableEq

def timePointMin : ℤ := -2 ^ 63

structure CanErrorStats where
  totalErrors : UInt64 := 0
  txTimeouts : UInt64 := 0
  arbitrationLost : UInt64 := 0
  protocolErrors : UInt64 := 0
  noAckErrors : UInt64 := 0
  busOffEvents : UInt64 := 0
  controllerRestarts : UInt64 := 0
  lastError : ℤ := 0
  lastBusOff : ℤ := 0
  lastRecovery : ℤ := 0
deriving DecidableEq

structure CanErrorEvent where
  type : CanErrorType := .none
  state : CanBusState := .errorActive
  counters : CanErrorCounters := {}
  timestamp : ℤ := 0
  arbitrationLostBit : UInt32 := 0
  protocolErrorLocation : UInt8 := 0
  description : String := ""
deriving DecidableEq

inductive CanNotification where
  | busState (oldState newState : CanBusState)
  | errorEvent (event : CanErrorEvent)
deriving DecidableEq

/-- Of a callback only whether one is installed. -/
structure CanErrorHandler where
  currentState : CanBusState := .errorActive
  counters : CanErrorCounters := {}
  stats : CanErrorStats :=
    { lastError := timePointMin, lastBusOff := timePointMin, lastRecovery := timePointMin }
  stateCallback : Bool := false
  errorCallback : Bool := false
deriving DecidableEq

def canErrTxTimeout : UInt32 := 0x1
def canErrLostarb : UInt32 := 0x2
def canErrCrtl : UInt32 := 0x4
def canErrProt : UInt32 := 0x8
def canErrTrx : UInt32 := 0x10
def canErrAck : UInt32 := 0x20
def canErrBusoff : UInt32 := 0x40
def canErrBuserror : UInt32 := 0x80
def canErrRestarted : UInt32 := 0x100

def canErrCrtlRxWarning : UInt8 := 0x04
def canErrCrtlTxWarning : UInt8 := 0x08
def canErrCrtlRxPassive : UInt8 := 0x10
def canErrCrtlTxPassive : UInt8 := 0x20
def canErrCrtlActive : UInt8 := 0x40

namespace CanErrorHandler

abbrev MethodStmt := Stmt CanErrorHandler CanErrorEvent CanNotification

def hexString (n : UInt8) : String := String.ofList (Nat.toDigits 16 n.toNat)

def protocolErrorType (type : UInt8) : String :=
  match type.toNat with
  | 0x01 => "single bit error"
  | 0x02 => "frame format error"
  | 0x04 => "bit stuffing error"
  | 0x08 => "unable to send dominant bit"
  | 0x10 => "unable to send recessive bit"
  | 0x20 => "bus overload"
  | 0x40 => "active error announcement"
  | 0x80 => "error on transmission"
  | _ => "unknown (0x" ++ hexString type ++ ")"

def protocolErrorPlace (location : UInt8) : String :=
  match location.toNat with
  | 0x03 => "start of frame"
  | 0x02 => "ID bits 28-21"
  | 0x06 => "ID bits 20-18"
  | 0x04 => "SRTR bit"
  | 0x05 => "IDE bit"
  | 0x07 => "ID bits 17-13"
  | 0x0F => "ID bits 12-5"
  | 0x0E => "ID bits 4-0"
  | 0x0C => "RTR bit"
  | 0x0D => "reserved bit 1"
  | 0x09 => "reserved bit 0"
  | 0x0B => "data length code"
  | 0x0A => "data section"
  | 0x08 => "CRC sequence"
  | 0x18 => "CRC delimiter"
  | 0x19 => "ACK slot"
  | 0x1B => "ACK delimiter"
  | 0x1A => "end of frame"
  | 0x12 => "intermission"
  | _ => "unknown (0x" ++ hexString location ++ ")"

def parseProtocolError (location type : UInt8) : String :=
  protocolErrorType type ++ " at " ++ protocolErrorPlace location

/-- The state is exchanged; a change is told with the lock given up. -/
def updateState (newState : CanBusState) : MethodStmt :=
  .callReleased (fun h =>
    ({ h with currentState := newState },
      if h.currentState ≠ newState ∧ h.stateCallback = true then
        some (.busState h.currentState newState)
      else none))

def setStats (f : CanErrorStats → CanErrorStats) : MethodStmt :=
  .update (fun h event => ({ h with stats := f h.stats }, event))

def setCounters (counters : CanErrorCounters) : MethodStmt :=
  .update (fun h event => ({ h with counters := counters }, event))

def setEvent (f : CanErrorHandler → CanErrorEvent → CanErrorEvent) : MethodStmt :=
  .update (fun h event => (h, f h event))

def invokeErrorCallback : MethodStmt :=
  .callHolding (fun h event => if h.errorCallback then some (.errorEvent event) else none)

def ifSet (bit : Bool) (stmts : List MethodStmt) : List MethodStmt := if bit then stmts else []

def hasClass (canId errClass : UInt32) : Bool := canId &&& errClass != 0

def hasBit (byte mask : UInt8) : Bool := byte &&& mask != 0

def processErrorFrame (now : ℤ) (canId : UInt32) (data : Vector UInt8 8) : List MethodStmt :=
  [.lock,
    setStats (fun stats =>
      { stats with lastError := now, totalErrors := stats.totalErrors + 1 }),
    setEvent (fun _ event => { event with timestamp := now })] ++
  ifSet (hasClass canId canErrTxTimeout)
    [setEvent (fun _ event => { event with type := .txTimeout }),
      setStats (fun stats => { stats with txTimeouts := stats.txTimeouts + 1 })] ++
  ifSet (hasClass canId canErrLostarb)
    [setEvent (fun _ event =>
        { event with type := .arbitrationLost, arbitrationLostBit := data[0]!.toUInt32 }),
      setStats (fun stats => { stats with arbitrationLost := stats.arbitrationLost + 1 })] ++
  ifSet (hasClass canId canErrCrtl)
    ([setEvent (fun _ event => { event with type := .controllerError })] ++
      ifSet (hasBit data[1]! canErrCrtlRxWarning) [updateState .errorWarning] ++
      ifSet (hasBit data[1]! canErrCrtlTxWarning) [updateState .errorWarning] ++
      ifSet (hasBit data[1]! canErrCrtlRxPassive) [updateState .errorPassive] ++
      ifSet (hasBit data[1]! canErrCrtlTxPassive) [updateState .errorPassive] ++
      ifSet (hasBit data[1]! canErrCrtlActive) [updateState .errorActive]) ++
  ifSet (hasClass canId canErrProt)
    [setEvent (fun _ event =>
        { event with
          type := .protocolViolation
          protocolErrorLocation := data[3]!
          description := parseProtocolError data[2]! data[3]! }),
      setStats (fun stats => { stats with protocolErrors := stats.protocolErrors + 1 })] ++
  ifSet (hasClass canId canErrTrx)
    [setEvent (fun _ event => { event with type := .transceiverError })] ++
  ifSet (hasClass canId canErrAck)
    [setEvent (fun _ event => { event with type := .noAck }),
      setStats (fun stats => { stats with noAckErrors := stats.noAckErrors + 1 })] ++
  ifSet (hasClass canId canErrBusoff)
    [setEvent (fun _ event => { event with type := .busOff }),
      setStats (fun stats =>
        { stats with busOffEvents := stats.busOffEvents + 1, lastBusOff := now }),
      updateState .busOff] ++
  ifSet (hasClass canId canErrBuserror)
    [setEvent (fun _ event => { event with type := .busError })] ++
  ifSet (hasClass canId canErrRestarted)
    [setEvent (fun _ event => { event with type := .controllerRestarted }),
      setStats (fun stats =>
        { stats with controllerRestarts := stats.controllerRestarts + 1, lastRecovery := now }),
      updateState .errorActive] ++
  [setCounters ⟨data[6]!, data[7]!⟩,
    setEvent (fun h event => { event with state := h.currentState, counters := h.counters }),
    invokeErrorCallback,
    .unlock]

/-- The state is stored, not exchanged through `updateState`. -/
def resetStats : List MethodStmt :=
  [.lock,
    setStats (fun _ => {}),
    setCounters {},
    .update (fun h event => ({ h with currentState := .errorActive }, event)),
    .unlock]

def setBusStateCallback (callback : Bool) : List MethodStmt :=
  [.lock, .update (fun h event => ({ h with stateCallback := callback }, event)), .unlock]

def setErrorEventCallback (callback : Bool) : List MethodStmt :=
  [.lock, .update (fun h event => ({ h with errorCallback := callback }, event)), .unlock]

def hasError (h : CanErrorHandler) : Bool := h.currentState != .errorActive

def isOperational (h : CanErrorHandler) : Bool := h.currentState != .busOff

def millisecondsMax : ℤ := 2 ^ 63 - 1

def timeSinceLastError (h : CanErrorHandler) (now : ℤ) : ℤ :=
  if h.stats.lastError = timePointMin then millisecondsMax
  else (now - h.stats.lastError).tdiv 1000000

def getStatusString (h : CanErrorHandler) : String :=
  "CAN Bus Status: " ++ canBusStateToString h.currentState ++
  ", TEC=" ++ toString h.counters.txErrorCount.toNat ++
  ", REC=" ++ toString h.counters.rxErrorCount.toNat ++
  ", Total Errors=" ++ toString h.stats.totalErrors.toNat ++
  ", Bus-Off Events=" ++ toString h.stats.busOffEvents.toNat

section Perform

abbrev CallOutcome := Outcome CanErrorHandler CanErrorEvent CanNotification

/-- What the CRTL branch leaves of the state: its last update counts. -/
def crtlState (byte : UInt8) (old : CanBusState) : CanBusState :=
  if hasBit byte canErrCrtlActive then .errorActive
  else if hasBit byte canErrCrtlTxPassive then .errorPassive
  else if hasBit byte canErrCrtlRxPassive then .errorPassive
  else if hasBit byte canErrCrtlTxWarning then .errorWarning
  else if hasBit byte canErrCrtlRxWarning then .errorWarning
  else old

def frameState (canId : UInt32) (data : Vector UInt8 8) (old : CanBusState) : CanBusState :=
  if hasClass canId canErrRestarted then .errorActive
  else if hasClass canId canErrBusoff then .busOff
  else if hasClass canId canErrCrtl then crtlState data[1]! old
  else old

def stateOf (o : CallOutcome) : CanBusState := o.object.currentState

variable (o : CallOutcome)

theorem stateOf_ifSet (bit : Bool) (stmts : List MethodStmt) :
    stateOf (run perform o (ifSet bit stmts)) =
      if bit then stateOf (run perform o stmts) else stateOf o := by
  cases bit <;> rfl

@[simp] theorem stateOf_lock : stateOf (perform o .lock) = stateOf o := rfl

@[simp] theorem stateOf_unlock : stateOf (perform o .unlock) = stateOf o := rfl

@[simp] theorem stateOf_setStats (f : CanErrorStats → CanErrorStats) :
    stateOf (perform o (setStats f)) = stateOf o := rfl

@[simp] theorem stateOf_setCounters (counters : CanErrorCounters) :
    stateOf (perform o (setCounters counters)) = stateOf o := rfl

@[simp] theorem stateOf_setEvent (f : CanErrorHandler → CanErrorEvent → CanErrorEvent) :
    stateOf (perform o (setEvent f)) = stateOf o := rfl

@[simp] theorem stateOf_updateState (newState : CanBusState) :
    stateOf (perform o (updateState newState)) = newState := rfl

@[simp] theorem stateOf_invokeErrorCallback :
    stateOf (perform o invokeErrorCallback) = stateOf o := rfl

theorem stateOf_processErrorFrame (now : ℤ) (canId : UInt32) (data : Vector UInt8 8) :
    stateOf (run perform o (processErrorFrame now canId data)) =
      frameState canId data (stateOf o) := by
  simp [processErrorFrame, run_append, stateOf_ifSet, frameState, crtlState]

end Perform

section Statements

/-- The statements that `processErrorFrame` is made of. The state changes in `updateState` only. -/
inductive FrameStmt : MethodStmt → Prop where
  | lock : FrameStmt .lock
  | unlock : FrameStmt .unlock
  | setStats (f : CanErrorStats → CanErrorStats) : FrameStmt (setStats f)
  | setCounters (counters : CanErrorCounters) : FrameStmt (setCounters counters)
  | setEvent (f : CanErrorHandler → CanErrorEvent → CanErrorEvent) : FrameStmt (setEvent f)
  | updateState (newState : CanBusState) : FrameStmt (updateState newState)
  | invokeErrorCallback : FrameStmt invokeErrorCallback

theorem forall_mem_ifSet {P : MethodStmt → Prop} {bit : Bool} {stmts : List MethodStmt} :
    (∀ stmt ∈ ifSet bit stmts, P stmt) ↔ (bit = true → ∀ stmt ∈ stmts, P stmt) := by
  cases bit <;> simp [ifSet]

theorem frameStmt_processErrorFrame (now : ℤ) (canId : UInt32) (data : Vector UInt8 8) :
    ∀ stmt ∈ processErrorFrame now canId data, FrameStmt stmt := by
  simp only [processErrorFrame, List.forall_mem_append, List.forall_mem_cons, forall_mem_ifSet]
  simp [FrameStmt.lock, FrameStmt.unlock, FrameStmt.setStats, FrameStmt.setCounters,
    FrameStmt.setEvent, FrameStmt.updateState, FrameStmt.invokeErrorCallback]

end Statements

end CanErrorHandler

end SpeeduinoDash
