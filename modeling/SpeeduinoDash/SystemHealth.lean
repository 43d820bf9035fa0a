import Mathlib.Data.Int.Notation
import Mathlib.Logic.Function.Basic
import SpeeduinoDash.Lib.Monitor

set_option autoImplicit false

/-!
# The system health monitor

Times are readings of the steady clock in nanoseconds. A callback is only known to be installed
or not; what it does is up to the run. Every operation is cut into its locked sections: a section
ends the operation, or releases the mutex around a callback, or calls `updateSystemMode` as the
last thing the operation does.
-/
namespace SpeeduinoDash

inductive SystemMode where
  | normal
  | degradedCAN
  | degradedCamera
  | degradedHMI
  | degradedMultiple
  | safeMode
  | safeShutdown
deriving DecidableEq

/-- The value of the enumerator: higher values are more degraded. -/
def SystemMode.severity : SystemMode → ℕ
  | .normal => 0
  | .degradedCAN => 1
  | .degradedCamera => 2
  | .degradedHMI => 3
  | .degradedMultiple => 4
  | .safeMode => 5
  | .safeShutdown => 6

inductive SubsystemId where
  | can
  | camera
  | openAuto
  | gpio
  | zmq
  | config
deriving DecidableEq

def SubsystemId.all : List SubsystemId := [.can, .camera, .openAuto, .gpio, .zmq, .config]

structure SubsystemStatus where
  healthy : Bool := false
  lastHeartbeat : ℤ := 0
  timeoutMs : ℤ := 500
  errorCount : UInt32 := 0
  lastError : String := ""

structure SystemHealth where
  currentMode : SystemMode := .normal
  subsystems : SubsystemId → SubsystemStatus
  modeCallback : Bool := false
  healthCallback : Bool := false
  shutdownRequested : Bool := false

namespace SystemHealth

inductive Notification where
  | modeChange (oldMode newMode : SystemMode)
  | healthChange (id : SubsystemId) (healthy : Bool)
deriving DecidableEq

/-- What an operation still has to do after a callback. -/
inductive Rest where
  | done
  | update
  | timeouts (now : ℤ) (later : List SubsystemId)

inductive Stop where
  | stops (call : Option (Notification × Rest))
  | updates

/-- A new monitor, all subsystems assumed healthy. -/
def new (now : ℤ) (modeCallback healthCallback : Bool) : SystemHealth where
  subsystems := fun _ => { healthy := true, lastHeartbeat := now }
  modeCallback := modeCallback
  healthCallback := healthCallback

def health (h : SystemHealth) (id : SubsystemId) : Bool := (h.subsystems id).healthy

def setStatus (h : SystemHealth) (id : SubsystemId) (status : SubsystemStatus) : SystemHealth :=
  { h with subsystems := Function.update h.subsystems id status }

def isSubsystemHealthy (h : SystemHealth) (id : SubsystemId) : Bool := h.health id

def unhealthyCount (health : SubsystemId → Bool) : ℕ := SubsystemId.all.countP (fun id => !health id)

def modeFor (health : SubsystemId → Bool) : SystemMode :=
  let canHealthy := health .can
  let cameraHealthy := health .camera
  let count := unhealthyCount health
  if count = 0 then .normal
  else if 3 ≤ count then .safeMode
  else if !canHealthy && !cameraHealthy then .degradedMultiple
  else if !canHealthy then .degradedCAN
  else if !cameraHealthy then .degradedCamera
  else .degradedHMI

def notifyModeChange (h : SystemHealth) (oldMode newMode : SystemMode) :
    Option (Notification × Rest) :=
  if h.modeCallback then some (.modeChange oldMode newMode, .done) else none

/-- What follows a health notification if nobody listens is `next`, and `rest` if the mutex was
    released for it. -/
def notifyHealthChange (h : SystemHealth) (id : SubsystemId) (healthy : Bool) (rest : Rest)
    (next : SystemHealth × Stop) : SystemHealth × Stop :=
  if h.healthCallback then (h, .stops (some (.healthChange id healthy, rest))) else next

def updateSystemMode (h : SystemHealth) : SystemHealth × Option (Notification × Rest) :=
  if h.shutdownRequested then (h, none)
  else
    let newMode := modeFor h.health
    let h' := { h with currentMode := newMode }
    (h', if h.currentMode ≠ newMode then h'.notifyModeChange h.currentMode newMode else none)

/-- `reportHeartbeat` and `reportRecovery` differ in the order of two assignments only. -/
def recover (h : SystemHealth) (id : SubsystemId) (now : ℤ) : SystemHealth × Stop :=
  let wasHealthy := h.health id
  let h' := h.setStatus id { h.subsystems id with lastHeartbeat := now, healthy := true }
  if !wasHealthy then h'.notifyHealthChange id true .update (h', .updates)
  else (h', .stops none)

def reportHeartbeat (h : SystemHealth) (id : SubsystemId) (now : ℤ) : SystemHealth × Stop :=
  h.recover id now

def reportRecovery (h : SystemHealth) (id : SubsystemId) (now : ℤ) : SystemHealth × Stop :=
  h.recover id now

def reportError (h : SystemHealth) (id : SubsystemId) (errorMessage : String) (isFatal : Bool) :
    SystemHealth × Stop :=
  let wasHealthy := h.health id
  let sub := h.subsystems id
  let h' := h.setStatus id
    { sub with errorCount := sub.errorCount + 1, lastError := errorMessage }
  if isFatal then
    let h'' := h'.setStatus id { h'.subsystems id with healthy := false }
    if wasHealthy then h''.notifyHealthChange id false .update (h'', .updates)
    else (h'', .stops none)
  else (h', .stops none)

def setSubsystemHealth (h : SystemHealth) (id : SubsystemId) (healthy : Bool) (now : ℤ) :
    SystemHealth × Stop :=
  let wasHealthy := h.health id
  let sub := h.subsystems id
  let h' := h.setStatus id
    { sub with healthy := healthy, lastHeartbeat := if healthy then now else sub.lastHeartbeat }
  if wasHealthy ≠ healthy then h'.notifyHealthChange id healthy .update (h', .updates)
  else (h', .stops none)

def setSubsystemTimeout (h : SystemHealth) (id : SubsystemId) (timeoutMs : ℤ) :
    SystemHealth × Stop :=
  (h.setStatus id { h.subsystems id with timeoutMs := timeoutMs }, .stops none)

def timedOut (sub : SubsystemStatus) (now : ℤ) : Bool :=
  sub.healthy && sub.timeoutMs < (now - sub.lastHeartbeat).tdiv 1000000

/-- The loop of `checkTimeouts` from the subsystems `later` on. -/
def timeoutLoop (now : ℤ) : Bool → List SubsystemId → SystemHealth → SystemHealth × Stop
  | anyChanged, [], h => (h, if anyChanged then .updates else .stops none)
  | anyChanged, id :: later, h =>
    if timedOut (h.subsystems id) now then
      let h' := h.setStatus id { h.subsystems id with healthy := false }
      h'.notifyHealthChange id false (.timeouts now later) (timeoutLoop now true later h')
    else timeoutLoop now anyChanged later h

def checkTimeouts (h : SystemHealth) (now : ℤ) : SystemHealth × Stop :=
  timeoutLoop now false SubsystemId.all h

def requestShutdown (h : SystemHealth) : SystemHealth × Stop :=
  if !h.shutdownRequested then
    let h' := { h with shutdownRequested := true, currentMode := .safeShutdown }
    (h', .stops (h'.notifyModeChange h.currentMode .safeShutdown))
  else (h, .stops none)

def reset (h : SystemHealth) (now : ℤ) : SystemHealth × Stop :=
  let h' : SystemHealth :=
    { h with
      subsystems := fun id =>
        { h.subsystems id with healthy := true, lastHeartbeat := now, errorCount := 0, lastError := "" }
      shutdownRequested := false
      currentMode := .normal }
  (h', .stops (if h.currentMode ≠ .normal then h'.notifyModeChange h.currentMode .normal else none))

/-- The public operations. An `id` is `none` when its value is not that of a subsystem: then the
    operation returns at once. -/
inductive Operation where
  | reportHeartbeat (id : Option SubsystemId) (now : ℤ)
  | reportError (id : Option SubsystemId) (errorMessage : String) (isFatal : Bool)
  | reportRecovery (id : Option SubsystemId) (now : ℤ)
  | setSubsystemHealth (id : Option SubsystemId) (healthy : Bool) (now : ℤ)
  | setSubsystemTimeout (id : Option SubsystemId) (timeoutMs : ℤ)
  | checkTimeouts (now : ℤ)
  | setModeChangeCallback (callback : Bool)
  | setHealthChangeCallback (callback : Bool)
  | requestShutdown
  | reset (now : ℤ)

def guarded (h : SystemHealth) (id : Option SubsystemId)
    (operation : SubsystemId → SystemHealth × Stop) : SystemHealth × Stop :=
  match id with
  | none => (h, .stops none)
  | some id => operation id

def perform (h : SystemHealth) : Operation → SystemHealth × Stop
  | .reportHeartbeat id now => h.guarded id (fun id => h.reportHeartbeat id now)
  | .reportError id errorMessage isFatal =>
    h.guarded id (fun id => h.reportError id errorMessage isFatal)
  | .reportRecovery id now => h.guarded id (fun id => h.reportRecovery id now)
  | .setSubsystemHealth id healthy now =>
    h.guarded id (fun id => h.setSubsystemHealth id healthy now)
  | .setSubsystemTimeout id timeoutMs => h.guarded id (fun id => h.setSubsystemTimeout id timeoutMs)
  | .checkTimeouts now => h.checkTimeouts now
  | .setModeChangeCallback callback => ({ h with modeCallback := callback }, .stops none)
  | .setHealthChangeCallback callback => ({ h with healthCallback := callback }, .stops none)
  | .requestShutdown => h.requestShutdown
  | .reset now => h.reset now

def goOn (h : SystemHealth) : Rest → SystemHealth × Stop
  | .done => (h, .stops none)
  | .update => (h, .updates)
  | .timeouts now later => timeoutLoop now true later h

def finish (p : SystemHealth × Stop) : SystemHealth × Option (Notification × Rest) :=
  match p.2 with
  | .stops call => (p.1, call)
  | .updates => p.1.updateSystemMode

def sections : Lib.Monitor.Sections SystemHealth Operation Notification Rest where
  start op h := finish (h.perform op)
  resume rest h := finish (h.goOn rest)

end SystemHealth

end SpeeduinoDash
