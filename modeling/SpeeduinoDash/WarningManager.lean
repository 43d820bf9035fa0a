import Mathlib.Data.Rat.Floor
import Mathlib.Logic.Function.Basic
import SpeeduinoDash.Lib.Snapshots

set_option autoImplicit false

/-!
# The warning manager

`R` is the number type of the inputs and thresholds (`real` in the code).
-/
namespace SpeeduinoDash
open Lib.Runs Lib.Snapshots

/-- The comparisons of the number type, its literals and `toFixed`; no law of them is assumed. -/
class QmlReal (R : Type) extends LE R, LT R where
  decidableLE : DecidableLE R
  decidableLT : DecidableLT R
  literal : ℚ → R
  toFixed : R → ℕ → String

attribute [reducible, instance] QmlReal.decidableLE QmlReal.decidableLT

inductive Severity where
  | none
  | info
  | warning
  | critical
  | emergency
deriving DecidableEq

def Severity.level : Severity → ℕ
  | .none => 0
  | .info => 1
  | .warning => 2
  | .critical => 3
  | .emergency => 4

/-- What warnings are about, in the order in which `checkWarnings` takes them. -/
inductive Parameter where
  | rpm
  | clt
  | oilTemp
  | oilPress
  | battery
  | afr
  | iat
  | boost
  | egt
  | cel
  | knock
deriving DecidableEq

namespace Parameter

def name : Parameter → String
  | .rpm => "RPM"
  | .clt => "CLT"
  | .oilTemp => "OIL_TEMP"
  | .oilPress => "OIL_PRESS"
  | .battery => "BATTERY"
  | .afr => "AFR"
  | .iat => "IAT"
  | .boost => "BOOST"
  | .egt => "EGT"
  | .cel => "CEL"
  | .knock => "KNOCK"

def all : List Parameter :=
  [.rpm, .clt, .oilTemp, .oilPress, .battery, .afr, .iat, .boost, .egt, .cel, .knock]

theorem mem_all (p : Parameter) : p ∈ all := by
  cases p <;> decide

end Parameter

structure Warning where
  parameter : Parameter
  severity : Severity
  message : String
  timestamp : ℕ
  acknowledged : Bool := false
deriving DecidableEq

inductive Signal where
  | warningTriggered (parameter : Parameter) (severity : Severity) (message : String)
  | warningCleared (parameter : Parameter)
  | emergencyAlert (message : String)
deriving DecidableEq

/-- The state that a check leaves for the display, such as `rpmWarning` and `rpmCritical`. -/
structure Levels where
  warning : Bool := false
  critical : Bool := false
deriving DecidableEq

section Inputs

variable (R : Type) [QmlReal R]

open QmlReal (literal)

structure Inputs where
  rpm : R := literal 0
  coolantTemp : R := literal 0
  oilTemp : R := literal 0
  oilPressure : R := literal 0
  batteryVoltage : R := literal 0
  afr : R := literal 14.7
  iat : R := literal 0
  boostPsi : R := literal 0
  egt : R := literal 0
  celOn : Bool := false
  knockDetected : Bool := false

/-- `thresholds[parameter][type]`. -/
def Thresholds := String → Option (String → Option R)

def defaultThresholds : List (String × List (String × ℚ)) :=
  [("rpm", [("warning", 6500), ("critical", 7000), ("emergency", 7500)]),
    ("coolantTemp", [("warning", 95), ("critical", 105), ("emergency", 115)]),
    ("oilTemp", [("warning", 110), ("critical", 120), ("emergency", 130)]),
    ("oilPressure", [("warningLow", 25), ("criticalLow", 15), ("emergencyLow", 10)]),
    ("fuelPressure", [("warningLow", 35), ("criticalLow", 30), ("emergencyLow", 25)]),
    ("batteryVoltage", [("warningLow", 12.5), ("criticalLow", 11.8), ("warningHigh", 15.0),
      ("criticalHigh", 15.5)]),
    ("afr", [("warningLean", 15.5), ("criticalLean", 16.5), ("warningRich", 11.0),
      ("criticalRich", 10.0)]),
    ("iat", [("warning", 50), ("critical", 60), ("emergency", 70)]),
    ("boostPsi", [("warning", 15), ("critical", 18), ("emergency", 22)]),
    ("egt", [("warning", 850), ("critical", 950), ("emergency", 1050)])]

def Thresholds.default : Thresholds R := fun parameter =>
  (defaultThresholds.lookup parameter).map (fun types type => (types.lookup type).map literal)

structure WarningManager where
  inputs : Inputs R := {}
  thresholds : Thresholds R := .default R
  activeWarnings : List Warning := []
  highestSeverity : ℕ := 0
  warningHistory : List Warning := []
  maxHistorySize : ℕ := 100
  levels : Parameter → Levels := fun _ => {}

end Inputs

namespace WarningManager
open QmlReal (literal toFixed)

variable {R : Type} [QmlReal R]

section Comparisons

/-- A comparison with a threshold that is not there is false. -/
def atLeast (x : R) (threshold : Option R) : Bool := threshold.any (fun t => t ≤ x)

def atMost (x : R) (threshold : Option R) : Bool := threshold.any (fun t => x ≤ t)

def above (x : R) (threshold : Option R) : Bool := threshold.any (fun t => t < x)

def below (x : R) (threshold : Option R) : Bool := threshold.any (fun t => x < t)

end Comparisons

section Checks

variable (m : WarningManager R)

def threshold (parameter type : String) : Option R :=
  (m.thresholds parameter).bind (fun types => types type)

def risingLevels (x : R) (parameter : String) : Levels where
  warning := atLeast x (m.threshold parameter "warning") &&
    below x (m.threshold parameter "critical")
  critical := atLeast x (m.threshold parameter "critical")

def newLevels : Parameter → Levels
  | .rpm => m.risingLevels m.inputs.rpm "rpm"
  | .clt => m.risingLevels m.inputs.coolantTemp "coolantTemp"
  | .oilTemp => m.risingLevels m.inputs.oilTemp "oilTemp"
  | .oilPress =>
    let x := m.inputs.oilPressure
    { warning := decide (literal 0 < x) && atMost x (m.threshold "oilPressure" "warningLow") &&
        above x (m.threshold "oilPressure" "criticalLow")
      critical := decide (literal 0 < x) && atMost x (m.threshold "oilPressure" "criticalLow") }
  | .battery =>
    let x := m.inputs.batteryVoltage
    { warning := below x (m.threshold "batteryVoltage" "warningLow") ||
        above x (m.threshold "batteryVoltage" "warningHigh")
      critical := below x (m.threshold "batteryVoltage" "criticalLow") ||
        above x (m.threshold "batteryVoltage" "criticalHigh") }
  | .afr =>
    let x := m.inputs.afr
    { warning := above x (m.threshold "afr" "warningLean") ||
        below x (m.threshold "afr" "warningRich")
      critical := above x (m.threshold "afr" "criticalLean") ||
        below x (m.threshold "afr" "criticalRich") }
  | .iat => { warning := atLeast m.inputs.iat (m.threshold "iat" "warning") }
  | .boost => m.risingLevels m.inputs.boostPsi "boostPsi"
  | .egt => m.risingLevels m.inputs.egt "egt"
  | .cel => {}
  | .knock => {}

def worst (emergency critical warning : Bool) : Option Severity :=
  if emergency then some .emergency
  else if critical then some .critical
  else if warning then some .warning
  else none

def severity (p : Parameter) : Option Severity :=
  let levels := m.newLevels p
  match p with
  | .rpm =>
    worst (atLeast m.inputs.rpm (m.threshold "rpm" "emergency")) levels.critical levels.warning
  | .clt =>
    worst (atLeast m.inputs.coolantTemp (m.threshold "coolantTemp" "emergency")) levels.critical
      levels.warning
  | .oilTemp =>
    worst (atLeast m.inputs.oilTemp (m.threshold "oilTemp" "emergency")) levels.critical
      levels.warning
  | .oilPress =>
    let running := decide (literal 1000 < m.inputs.rpm)
    worst (decide (literal 0 < m.inputs.oilPressure) &&
        atMost m.inputs.oilPressure (m.threshold "oilPressure" "emergencyLow") && running)
      (levels.critical && running) (levels.warning && running)
  | .battery => worst false levels.critical levels.warning
  | .afr =>
    let running := decide (literal 2000 < m.inputs.rpm)
    worst false (levels.critical && running) (levels.warning && running)
  | .iat => worst false (atLeast m.inputs.iat (m.threshold "iat" "emergency")) levels.warning
  | .boost =>
    worst (atLeast m.inputs.boostPsi (m.threshold "boostPsi" "emergency")) levels.critical
      levels.warning
  | .egt => worst (atLeast m.inputs.egt (m.threshold "egt" "emergency")) levels.critical levels.warning
  | .cel => worst false false m.inputs.celOn
  | .knock => worst false m.inputs.knockDetected false

def message (p : Parameter) (severity : Severity) : String :=
  match p, severity with
  | .rpm, .emergency => "RPM at " ++ toFixed m.inputs.rpm 0 ++ " - OVER REV!"
  | .rpm, .critical => "RPM at " ++ toFixed m.inputs.rpm 0 ++ " - Shift!"
  | .rpm, _ => "High RPM: " ++ toFixed m.inputs.rpm 0
  | .clt, .emergency => "OVERHEAT! " ++ toFixed m.inputs.coolantTemp 0 ++ "°C"
  | .clt, .critical => "Coolant critical: " ++ toFixed m.inputs.coolantTemp 0 ++ "°C"
  | .clt, _ => "Coolant high: " ++ toFixed m.inputs.coolantTemp 0 ++ "°C"
  | .oilTemp, .emergency => "Oil overheat! " ++ toFixed m.inputs.oilTemp 0 ++ "°C"
  | .oilTemp, .critical => "Oil temp critical: " ++ toFixed m.inputs.oilTemp 0 ++ "°C"
  | .oilTemp, _ => "Oil temp high: " ++ toFixed m.inputs.oilTemp 0 ++ "°C"
  | .oilPress, .emergency =>
    "OIL PRESSURE EMERGENCY! " ++ toFixed m.inputs.oilPressure 0 ++ " psi"
  | .oilPress, .critical => "Low oil pressure: " ++ toFixed m.inputs.oilPressure 0 ++ " psi"
  | .oilPress, _ => "Oil pressure low: " ++ toFixed m.inputs.oilPressure 0 ++ " psi"
  | .battery, .critical => "Battery voltage: " ++ toFixed m.inputs.batteryVoltage 1 ++ "V"
  | .battery, _ => "Battery: " ++ toFixed m.inputs.batteryVoltage 1 ++ "V"
  | .afr, .critical =>
    (if above m.inputs.afr (m.threshold "afr" "criticalLean") then "TOO LEAN!" else "TOO RICH!") ++
      " AFR: " ++ toFixed m.inputs.afr 1
  | .afr, _ => "AFR: " ++ toFixed m.inputs.afr 1
  | .iat, .critical => "Intake air too hot: " ++ toFixed m.inputs.iat 0 ++ "°C"
  | .iat, _ => "High IAT: " ++ toFixed m.inputs.iat 0 ++ "°C"
  | .boost, .emergency => "OVERBOOST! " ++ toFixed m.inputs.boostPsi 1 ++ " psi"
  | .boost, .critical => "High boost: " ++ toFixed m.inputs.boostPsi 1 ++ " psi"
  | .boost, _ => "Boost: " ++ toFixed m.inputs.boostPsi 1 ++ " psi"
  | .egt, .emergency => "EGT EMERGENCY! " ++ toFixed m.inputs.egt 0 ++ "°C"
  | .egt, .critical => "High EGT: " ++ toFixed m.inputs.egt 0 ++ "°C"
  | .egt, _ => "EGT elevated: " ++ toFixed m.inputs.egt 0 ++ "°C"
  | .cel, _ => "Check Engine Light"
  | .knock, _ => "Knock detected!"

/-- `now` is the reading of the clock at each warning. -/
def newWarnings (now : Parameter → ℕ) : List Warning :=
  Parameter.all.filterMap (fun p =>
    (m.severity p).map (fun severity =>
      { parameter := p, severity, message := m.message p severity, timestamp := now p }))

def addToHistory (warning : Warning) : WarningManager R :=
  let history := { warning with acknowledged := false } :: m.warningHistory
  { m with
    warningHistory := if m.maxHistorySize < history.length then history.dropLast else history }

def signalsOf (warning : Warning) : List Signal :=
  .warningTriggered warning.parameter warning.severity warning.message ::
    if 4 ≤ warning.severity.level then [.emergencyAlert warning.message] else []

def processWarningChanges (newWarnings : List Warning) : WarningManager R × List Signal :=
  let new := arrivals Warning.parameter m.activeWarnings newWarnings
  let cleared := arrivals Warning.parameter newWarnings m.activeWarnings
  ({ new.foldl addToHistory m with activeWarnings := newWarnings },
    new.flatMap signalsOf ++ cleared.map (fun w => .warningCleared w.parameter))

def checkWarnings (now : Parameter → ℕ) : WarningManager R × List Signal :=
  let warnings := m.newWarnings now
  { m with
    levels := m.newLevels
    highestSeverity :=
      (warnings.map (fun w : Warning => w.severity.level)).foldl max 0 }.processWarningChanges warnings

def acknowledgeWarning (parameter : String) : WarningManager R :=
  { m with
    activeWarnings :=
      m.activeWarnings.modify (m.activeWarnings.findIdx (fun w => w.parameter.name = parameter))
        (fun w => { w with acknowledged := true }) }

def clearAllWarnings : WarningManager R := { m with activeWarnings := [], highestSeverity := 0 }

def clearHistory : WarningManager R := { m with warningHistory := [] }

def setThreshold (parameter type : String) (value : R) : WarningManager R :=
  match m.thresholds parameter with
  | none => m
  | some types =>
    { m with
      thresholds :=
        Function.update m.thresholds parameter (some (Function.update types type (some value))) }

end Checks

inductive Op (R : Type) [QmlReal R] where
  | setInputs (inputs : Inputs R)
  | setThreshold (parameter type : String) (value : R)
  | checkWarnings (now : Parameter → ℕ)
  | acknowledgeWarning (parameter : String)
  | clearAllWarnings
  | clearHistory

def step (m : WarningManager R) : Op R → WarningManager R × List Signal
  | .setInputs inputs => ({ m with inputs := inputs }, [])
  | .setThreshold parameter type value => (m.setThreshold parameter type value, [])
  | .checkWarnings now => m.checkWarnings now
  | .acknowledgeWarning parameter => (m.acknowledgeWarning parameter, [])
  | .clearAllWarnings => (m.clearAllWarnings, [])
  | .clearHistory => (m.clearHistory, [])

def next (m : WarningManager R) (op : Op R) : WarningManager R := (m.step op).1

def after (ops : List (Op R)) : WarningManager R := run next {} ops

end WarningManager

end SpeeduinoDash
