import Mathlib.Data.Int.Notation
import Mathlib.Data.Nat.Notation
import SpeeduinoDash.Lib.Runs

set_option autoImplicit false

/-!
# The OpenAuto controller

`process` is the state of the `QProcess`; what the system makes of a call (which files exist, how
a process ends, whether it starts in time) comes with the event. Slots that a waiting call runs
are run inside that call.
-/
namespace SpeeduinoDash
open Lib.Runs

def maxCrashRestarts : ℕ := 3
def initialRestartDelayMs : ℕ := 2000
def maxRestartDelayMs : ℕ := 30000
def restartDelayMs : ℕ := 500

inductive ProcessState where
  | notRunning
  | starting
  | running
deriving DecidableEq

inductive ExitStatus where
  | normalExit
  | crashExit
deriving DecidableEq

inductive ProcessError where
  | failedToStart
  | crashed
  | timedout
  | writeError
  | readError
  | unknown (error : ℤ)
deriving DecidableEq

structure OpenAutoController where
  executablePath : String := "/usr/local/bin/autoapp"
  autoStart : Bool := true
  running : Bool := false
  connected : Bool := false
  errorMessage : String := ""
  connectionType : String := ""
  phoneName : String := ""
  lastDetectedDevice : String := ""
  process : ProcessState := .notRunning
  crashRestartCount : ℕ := 0
  currentRestartDelayMs : ℕ := initialRestartDelayMs
  /-- The delays of the single-shot timers that will call `start`. -/
  startTimers : List ℕ := []
  /-- How many single-shot timers will ask whether the process is stable. -/
  stabilityTimers : ℕ := 0
deriving DecidableEq

/-- How a process ends that `start` kills because it had not come up yet. -/
inductive Killed where
  | outlives
  | failsToStart
  | startsAndDies (exitCode : ℤ) (status : ExitStatus)

inductive Launched where
  | inTime
  | failed
  | late

structure Launch where
  fileExists : String → Bool
  homePath : String
  killed : Killed
  launched : Launched

inductive Starter where
  | user
  | timer
  | usbCheck
deriving DecidableEq

/-- `crashLoop` is whether a crash loop is reported, `issued` who calls `start`. -/
structure Outcome where
  controller : OpenAutoController
  crashLoop : Bool := false
  issued : Option Starter := none

namespace OpenAutoController

def setConnected (c : OpenAutoController) (connected : Bool) : OpenAutoController :=
  if c.connected = connected then c
  else if connected then { c with connected := true }
  else { c with connected := false, phoneName := "", connectionType := "" }

def resetCrashes (c : OpenAutoController) : OpenAutoController :=
  { c with crashRestartCount := 0, currentRestartDelayMs := initialRestartDelayMs }

def onProcessStarted (c : OpenAutoController) : OpenAutoController :=
  { c with process := .running, running := true, stabilityTimers := c.stabilityTimers + 1 }

def crashMessage (exitCode : ℤ) : String :=
  "OpenAuto crashed with exit code " ++ toString exitCode

def crashLoopMessage (crashes : ℕ) : String :=
  "OpenAuto crash loop detected (" ++ toString crashes ++
    " crashes). Automatic restart disabled. Manual intervention required."

def onProcessFinished (c : OpenAutoController) (exitCode : ℤ) (status : ExitStatus) : Outcome :=
  let shouldAutoRestart := c.autoStart
  let c := { c with process := .notRunning, running := false }.setConnected false
  match status with
  | .normalExit => ⟨c.resetCrashes, false, none⟩
  | .crashExit =>
    let c := { c with errorMessage := crashMessage exitCode }
    if shouldAutoRestart then
      let c := { c with crashRestartCount := c.crashRestartCount + 1 }
      if maxCrashRestarts < c.crashRestartCount then
        ⟨{ c with errorMessage := crashLoopMessage c.crashRestartCount }.resetCrashes, true, none⟩
      else
        ⟨{ c with
            startTimers := c.startTimers ++ [c.currentRestartDelayMs]
            currentRestartDelayMs := min (c.currentRestartDelayMs * 2) maxRestartDelayMs },
          false, none⟩
    else ⟨c, false, none⟩

def onProcessError (c : OpenAutoController) (error : ProcessError) : OpenAutoController :=
  { c with
    errorMessage :=
      match error with
      | .failedToStart => "Failed to start OpenAuto - check executable path and permissions"
      | .crashed => "OpenAuto process crashed unexpectedly"
      | .timedout => "OpenAuto process operation timed out"
      | .writeError => "Write error communicating with OpenAuto"
      | .readError => "Read error communicating with OpenAuto"
      | .unknown error => "Unknown OpenAuto error (" ++ toString error ++ ")" }

def altPaths (homePath : String) : List String :=
  ["/usr/bin/autoapp", "/usr/local/bin/autoapp", "/opt/openauto/bin/autoapp",
    "/home/pi/openauto/bin/autoapp", homePath ++ "/openauto/bin/autoapp"]

def findExecutable (c : OpenAutoController) (l : Launch) : Option String :=
  if l.fileExists c.executablePath then some c.executablePath
  else (altPaths l.homePath).find? l.fileExists

def notFoundMessage (execPath homePath : String) : String :=
  "OpenAuto executable not found. Searched:\n" ++ execPath ++ "\n" ++
    String.intercalate "\n" (altPaths homePath)

/-- A process that has not come up yet is killed first. -/
def killStarting (c : OpenAutoController) (killed : Killed) : Outcome :=
  if c.process = .notRunning then ⟨c, false, none⟩
  else
    match killed with
    | .outlives => ⟨c, false, none⟩
    | .failsToStart =>
      ⟨{ c with process := .notRunning }.onProcessError .failedToStart, false, none⟩
    | .startsAndDies exitCode status => c.onProcessStarted.onProcessFinished exitCode status

def launch (c : OpenAutoController) (launched : Launched) : OpenAutoController :=
  match launched with
  | .inTime => { c with process := .starting }.onProcessStarted
  | .failed =>
    { c with
      process := .notRunning
      errorMessage := "Failed to start OpenAuto process within timeout" }
  | .late =>
    { c with
      process := .starting
      errorMessage := "Failed to start OpenAuto process within timeout" }

def start (c : OpenAutoController) (l : Launch) : Outcome :=
  if c.running then ⟨c, false, none⟩
  else
    let c := { c with errorMessage := "" }
    match c.findExecutable l with
    | none =>
      ⟨{ c with errorMessage := notFoundMessage c.executablePath l.homePath }, false, none⟩
    | some path =>
      let killed := { c with executablePath := path }.killStarting l.killed
      { killed with controller := killed.controller.launch l.launched }

/-- `ended` is how the process ends while `stop` waits for it. -/
def stop (c : OpenAutoController) (ended : Option (ℤ × ExitStatus)) : Outcome :=
  if c.running = false then ⟨c, false, none⟩
  else
    match ended with
    | none => ⟨c.setConnected false, false, none⟩
    | some (exitCode, status) =>
      let finished := c.onProcessFinished exitCode status
      { finished with controller := finished.controller.setConnected false }

def detectAndroidAutoDevice (c : OpenAutoController) (device : Option (String × String)) :
    OpenAutoController :=
  match device with
  | some (devicePath, deviceName) =>
    { c with phoneName := deviceName, lastDetectedDevice := devicePath }
  | none => { c with lastDetectedDevice := "" }

def checkUsbDevices (c : OpenAutoController) (device : Option (String × String)) (l : Launch) :
    Outcome :=
  let c := c.detectAndroidAutoDevice device
  if device.isSome ∧ c.connected = false ∧ c.autoStart = true ∧ c.running = false then
    { c.start l with issued := some .usbCheck }
  else ⟨c, false, none⟩

inductive Output where
  | phoneConnected
  | phoneDisconnected
  | wireless
  | other

def onReadyReadStdout (c : OpenAutoController) (output : Output) : OpenAutoController :=
  match output with
  | .phoneConnected => { c.setConnected true with connectionType := "USB" }
  | .phoneDisconnected => c.setConnected false
  | .wireless => { c with connectionType := "Wireless" }
  | .other => c

def onStabilityCheck (c : OpenAutoController) : OpenAutoController :=
  let c := { c with stabilityTimers := c.stabilityTimers - 1 }
  if c.running then c.resetCrashes else c

inductive Event where
  | processStarted
  | processFinished (exitCode : ℤ) (status : ExitStatus)
  | processFailedToStart
  | processError (error : ProcessError)
  | output (output : Output)
  | startTimer (i : ℕ) (l : Launch)
  | stabilityTimer
  | usbCheck (device : Option (String × String)) (l : Launch)
  | start (l : Launch)
  | stop (ended : Option (ℤ × ExitStatus))
  | restart (ended : Option (ℤ × ExitStatus))
  | toggle (l : Launch) (ended : Option (ℤ × ExitStatus))
  | scanForDevices (device : Option (String × String)) (l : Launch)
  | setAutoStart (autoStart : Bool)

/-- A process signal comes only in the process state it can come in, and a timer only fires if it
    is set. -/
def step (c : OpenAutoController) : Event → Outcome
  | .processStarted => ⟨if c.process = .starting then c.onProcessStarted else c, false, none⟩
  | .processFinished exitCode status =>
    if c.process = .running then c.onProcessFinished exitCode status else ⟨c, false, none⟩
  | .processFailedToStart =>
    ⟨if c.process = .starting then { c with process := .notRunning }.onProcessError .failedToStart
      else c, false, none⟩
  | .processError error => ⟨c.onProcessError error, false, none⟩
  | .output output =>
    ⟨if c.process = .running then c.onReadyReadStdout output else c, false, none⟩
  | .startTimer i l =>
    if i < c.startTimers.length then
      { { c with startTimers := c.startTimers.eraseIdx i }.start l with issued := some .timer }
    else ⟨c, false, none⟩
  | .stabilityTimer =>
    ⟨if 0 < c.stabilityTimers then c.onStabilityCheck else c, false, none⟩
  | .usbCheck device l => c.checkUsbDevices device l
  | .start l => { c.start l with issued := some .user }
  | .stop ended => c.stop ended
  | .restart ended =>
    let stopped := c.stop ended
    { stopped with
      controller :=
        { stopped.controller with startTimers := stopped.controller.startTimers ++ [restartDelayMs] } }
  | .toggle l ended => if c.running then c.stop ended else { c.start l with issued := some .user }
  | .scanForDevices device l => c.checkUsbDevices device l
  | .setAutoStart autoStart => ⟨{ c with autoStart := autoStart }, false, none⟩

def next (c : OpenAutoController) (e : Event) : OpenAutoController := (c.step e).controller

def after (events : List Event) : OpenAutoController := run next {} events

end OpenAutoController

end SpeeduinoDash
