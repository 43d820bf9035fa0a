import Mathlib.Data.Rat.Defs
import SpeeduinoDash.CanInterface
import SpeeduinoDash.Lib.Await

set_option autoImplicit false

/-!
# The OBD-II handler

What the interface answers is an argument: whether `send` succeeds, and for each round of a
waiting loop the time since the wait began and the frame that `receive` brings. Times are ticks
of the steady clock, one nanosecond each. Strings received are lists of bytes.
-/
namespace SpeeduinoDash
open Lib.Await

def requestBroadcast : UInt32 := 0x7DF
def requestEcu : UInt32 := 0x7E0
def responseEcu : UInt32 := 0x7E8

def mode01LiveData : UInt8 := 0x01
def mode09VehicleInfo : UInt8 := 0x09

def pidEngineLoad : UInt8 := 0x04
def pidCoolantTemp : UInt8 := 0x05
def pidFuelTrimShort : UInt8 := 0x06
def pidFuelTrimLong : UInt8 := 0x07
def pidFuelPressure : UInt8 := 0x0A
def pidMap : UInt8 := 0x0B
def pidRpm : UInt8 := 0x0C
def pidSpeed : UInt8 := 0x0D
def pidTimingAdvance : UInt8 := 0x0E
def pidIntakeTemp : UInt8 := 0x0F
def pidMaf : UInt8 := 0x10
def pidTps : UInt8 := 0x11
def pidO2Voltage : UInt8 := 0x14
def pidRuntime : UInt8 := 0x1F
def pidDistanceMil : UInt8 := 0x21
def pidFuelLevel : UInt8 := 0x2F
def pidBaroPressure : UInt8 := 0x33
def pidControlVoltage : UInt8 := 0x42
def pidAmbientTemp : UInt8 := 0x46
def pidOilTemp : UInt8 := 0x5C
def pidVin : UInt8 := 0x02

structure Poll where
  elapsed : ℕ
  frame : Option CanFrame
deriving DecidableEq

def Poll.Brings (p : Poll) (P : CanFrame → Prop) : Prop := ∃ f, p.frame = some f ∧ P f

/-- The answers of the interface that are still to come, and the frames it has taken so far. -/
structure Bus where
  sends : List Bool
  polls : List Poll
  sent : List CanFrame := []

/-- A `send` without an answer fails. -/
def Bus.takes (bus : Bus) : Bool := bus.sends.headD false

def Bus.send (bus : Bus) (frame : CanFrame) : Bool × Bus :=
  (bus.takes,
    { bus with
      sends := bus.sends.tail
      sent := if bus.takes then bus.sent ++ [frame] else bus.sent })

/-- `value` is the exact value of the formula that the code evaluates in `double`. -/
structure ObdLiveData where
  pid : UInt8 := 0
  value : ℚ := 0
  unit : String := ""
deriving DecidableEq

structure ObdHandler where
  timeoutMs : UInt32 := 100
  useBroadcast : Bool := true
  requestCount : UInt32 := 0
  timeoutCount : UInt32 := 0
  errorCount : UInt32 := 0
deriving DecidableEq

structure Answer (α : Type) where
  result : α
  handler : ObdHandler
  bus : Bus

namespace ObdHandler

def requestId (h : ObdHandler) : UInt32 := if h.useBroadcast then requestBroadcast else requestEcu

def buildRequest (h : ObdHandler) (mode pid1 pid2 : UInt8) : CanFrame where
  id := h.requestId
  dlc := 8
  data :=
    if pid2 ≠ 0 then #v[0x03, mode, pid1, pid2, 0, 0, 0, 0]
    else if pid1 ≠ 0 then #v[0x02, mode, pid1, 0, 0, 0, 0, 0]
    else #v[0x01, mode, 0, 0, 0, 0, 0, 0]

def pciType (f : CanFrame) : UInt8 := (f.byteAt 0 >>> 4) &&& 0x0F

/-- The check of a received frame. The sum is an `int`, so it does not wrap. -/
def answers (requestMode : UInt8) (f : CanFrame) : Bool :=
  f.id == responseEcu &&
    (if pciType f = 0x0 then (f.byteAt 1).toNat == requestMode.toNat + 0x40
    else if pciType f = 0x1 then (f.byteAt 2).toNat == requestMode.toNat + 0x40
    else false)

def milliseconds (ms : ℕ) : ℕ := ms * 1000000

def late (timeoutMs : UInt32) (p : Poll) : Bool := milliseconds timeoutMs.toNat < p.elapsed

def effectiveTimeout (h : ObdHandler) (timeoutMs : UInt32) : UInt32 :=
  if timeoutMs = 0 then h.timeoutMs else timeoutMs

/-- None as long as the loop waits for the frames of the bus. -/
def sendAndReceive (h : ObdHandler) (request : CanFrame) (timeoutMs : UInt32) (bus : Bus) :
    Option (Answer (Option CanFrame)) :=
  let h := { h with requestCount := h.requestCount + 1 }
  let (sent, bus) := bus.send request
  if sent = false then some ⟨none, { h with errorCount := h.errorCount + 1 }, bus⟩
  else
    match await (late (h.effectiveTimeout timeoutMs)) Poll.frame (answers (request.byteAt 1))
        bus.polls with
    | none => none
    | some (none, polls) =>
      some ⟨none, { h with timeoutCount := h.timeoutCount + 1 }, { bus with polls := polls }⟩
    | some (some response, polls) => some ⟨some response, h, { bus with polls := polls }⟩

def isTemperature (pid : UInt8) : Bool :=
  pid == pidCoolantTemp || pid == pidIntakeTemp || pid == pidAmbientTemp || pid == pidOilTemp

def isPercentage (pid : UInt8) : Bool :=
  pid == pidEngineLoad || pid == pidTps || pid == pidFuelLevel

/-- A formula of two bytes gives 0 when the length does not cover both. -/
def decodePID (pid a b len : UInt8) : ℚ :=
  let word : ℚ := (a.toNat : ℚ) * 256 + b.toNat
  let byte : ℚ := a.toNat
  if isTemperature pid then byte - 40
  else if pid = pidRpm then if len ≥ 2 then word / 4 else 0
  else if pid = pidSpeed then byte
  else if isPercentage pid then byte / 2.55
  else if pid = pidMap ∨ pid = pidBaroPressure then byte
  else if pid = pidTimingAdvance then byte / 2 - 64
  else if pid = pidFuelTrimShort ∨ pid = pidFuelTrimLong then (byte - 128) / 1.28
  else if pid = pidControlVoltage then if len ≥ 2 then word / 1000 else 0
  else if pid = pidMaf then if len ≥ 2 then word / 100 else 0
  else if pid = pidO2Voltage then byte / 200
  else if pid = pidFuelPressure then byte * 3
  else if pid = pidRuntime then if len ≥ 2 then word else 0
  else if pid = pidDistanceMil then if len ≥ 2 then word else 0
  else byte

def unitOf (pid : UInt8) : String :=
  if isTemperature pid then "C"
  else if pid = pidRpm then "rpm"
  else if pid = pidSpeed then "km/h"
  else if pid = pidMap ∨ pid = pidBaroPressure then "kPa"
  else if isPercentage pid then "%"
  else if pid = pidTimingAdvance then "deg"
  else if pid = pidControlVoltage then "V"
  else if pid = pidMaf then "g/s"
  else if pid = pidO2Voltage then "V"
  else if pid = pidFuelPressure then "kPa"
  else if pid = pidRuntime ∨ pid = pidDistanceMil then "s"
  else ""

/-- The values start at byte 3; mode and PID are subtracted from the length, which may wrap. -/
def parseLiveData (pid : UInt8) (response : CanFrame) : ObdLiveData where
  pid := pid
  value := decodePID pid (response.byteAt 3) (response.byteAt 4) (response.byteAt 0 - 2)
  unit := unitOf pid

def requestPID (h : ObdHandler) (pid : UInt8) (timeoutMs : UInt32) (bus : Bus) :
    Option (Answer (Option ObdLiveData)) :=
  match h.sendAndReceive (h.buildRequest mode01LiveData pid 0) timeoutMs bus with
  | none => none
  | some answer => some ⟨answer.result.map (parseLiveData pid), answer.handler, answer.bus⟩

def requestPIDs (h : ObdHandler) (timeoutMs : UInt32) (bus : Bus) :
    List UInt8 → Option (Answer (List ObdLiveData))
  | [] => some ⟨[], h, bus⟩
  | pid :: pids =>
    match h.requestPID pid timeoutMs bus with
    | none => none
    | some first =>
      match first.handler.requestPIDs timeoutMs first.bus pids with
      | none => none
      | some rest => some ⟨first.result.toList ++ rest.result, rest.handler, rest.bus⟩

@[simp] theorem buildRequest_mode (h : ObdHandler) (mode pid1 pid2 : UInt8) :
    (h.buildRequest mode pid1 pid2).byteAt 1 = mode := by
  rw [CanFrame.byteAt, buildRequest]
  dsimp only
  split_ifs <;> rfl

/-- What a request can come to: it is not sent, or its wait goes on, or ends late, or ends with a
    frame. -/
theorem sendAndReceive_cases (h : ObdHandler) (request : CanFrame) (timeoutMs : UInt32)
    (bus : Bus) :
    (bus.takes = false ∧ ∃ h', h.sendAndReceive request timeoutMs bus =
      some ⟨none, h', (bus.send request).2⟩) ∨
    (bus.takes = true ∧ await (late (h.effectiveTimeout timeoutMs)) Poll.frame
        (answers (request.byteAt 1)) bus.polls = none ∧
      h.sendAndReceive request timeoutMs bus = none) ∨
    (bus.takes = true ∧ ∃ frame polls h', await (late (h.effectiveTimeout timeoutMs)) Poll.frame
        (answers (request.byteAt 1)) bus.polls = some (frame, polls) ∧
      h.sendAndReceive request timeoutMs bus =
        some ⟨frame, h', { (bus.send request).2 with polls := polls }⟩) := by
  unfold sendAndReceive
  have htimeout : { h with requestCount := h.requestCount + 1 }.effectiveTimeout timeoutMs =
      h.effectiveTimeout timeoutMs := rfl
  dsimp only [Bus.send]
  rw [htimeout]
  cases hsent : bus.takes with
  | false => exact .inl ⟨rfl, _, rfl⟩
  | true =>
    rw [if_neg (by simp)]
    cases hawait : await (late (h.effectiveTimeout timeoutMs)) Poll.frame
        (answers (request.byteAt 1)) bus.polls with
    | none => exact .inr (.inl ⟨rfl, rfl, rfl⟩)
    | some taken =>
      obtain ⟨_ | frame, polls⟩ := taken
      · exact .inr (.inr ⟨rfl, none, polls, _, rfl, rfl⟩)
      · exact .inr (.inr ⟨rfl, some frame, polls, _, rfl, rfl⟩)

end ObdHandler

end SpeeduinoDash
