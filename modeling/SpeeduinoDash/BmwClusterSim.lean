import Mathlib.Data.Nat.Notation
import Mathlib.Tactic.SplitIfs
import SpeeduinoDash.CanInterface
import SpeeduinoDash.Lib.ByteOrder

set_option autoImplicit false

/-!
# The BMW cluster simulator

Every tick it gives the interface the frames that are due. `accepts` says which of them the
interface sends.
-/
namespace SpeeduinoDash
open Lib.ByteOrder

namespace Bmw

def asc1Id : UInt32 := 0x153
def egsId : UInt32 := 0x43F
def sasId : UInt32 := 0x1D2
def abs1Id : UInt32 := 0x1F0
def abs2Id : UInt32 := 0x1F5

def ascRateHz : ℕ := 10
def egsRateHz : ℕ := 10
def sasRateHz : ℕ := 50
def absRateHz : ℕ := 20

end Bmw

inductive BmwGear where
  | park
  | reverse
  | neutral
  | drive
  | gear1
  | gear2
  | gear3
  | gear4
  | gear5
  | gear6
  | manual
deriving DecidableEq

def BmwGear.toUInt8 : BmwGear → UInt8
  | .park => 0x50
  | .reverse => 0x52
  | .neutral => 0x4E
  | .drive => 0x44
  | .gear1 => 0x31
  | .gear2 => 0x32
  | .gear3 => 0x33
  | .gear4 => 0x34
  | .gear5 => 0x35
  | .gear6 => 0x36
  | .manual => 0x4D

structure BmwClusterSim where
  ascEnabled : Bool := true
  egsEnabled : Bool := true
  sasEnabled : Bool := false
  absEnabled : Bool := false
  dscOff : Bool := false
  dscActive : Bool := false
  tractionActive : Bool := false
  absActive : Bool := false
  gear : BmwGear := .neutral
  sportMode : Bool := false
  steeringAngle : Int16 := 0
  steeringRate : Int16 := 0
  wheelSpeedFL : UInt16 := 0
  wheelSpeedFR : UInt16 := 0
  wheelSpeedRL : UInt16 := 0
  wheelSpeedRR : UInt16 := 0
  tickCounter : UInt32 := 0
  framesSent : UInt32 := 0
  framesFailed : UInt32 := 0
deriving DecidableEq

namespace BmwClusterSim

def gearOf (gear : UInt8) : BmwGear :=
  match gear with
  | 0 => .neutral
  | 1 => .gear1
  | 2 => .gear2
  | 3 => .gear3
  | 4 => .gear4
  | 5 => .gear5
  | 6 => .gear6
  | 7 => .reverse
  | _ => .neutral

/-- The setters of the data, as opposed to those that enable a module. -/
inductive Setting where
  | dscOff (off : Bool)
  | dscActive (active : Bool)
  | tractionActive (active : Bool)
  | absActive (active : Bool)
  | bmwGear (gear : BmwGear)
  | gear (gear : UInt8)
  | sportMode (sport : Bool)
  | steeringAngle (angleDeg : Int16)
  | steeringRate (rateDegsPerSec : Int16)
  | wheelSpeedFL (speed : UInt16)
  | wheelSpeedFR (speed : UInt16)
  | wheelSpeedRL (speed : UInt16)
  | wheelSpeedRR (speed : UInt16)
  | allWheelSpeeds (speed : UInt16)

def clampAngle (angleDeg : Int16) : Int16 :=
  if angleDeg < -720 then -720 else if 720 < angleDeg then 720 else angleDeg

def set (s : BmwClusterSim) : Setting → BmwClusterSim
  | .dscOff off => { s with dscOff := off }
  | .dscActive active => { s with dscActive := active }
  | .tractionActive active => { s with tractionActive := active }
  | .absActive active => { s with absActive := active }
  | .bmwGear gear => { s with gear }
  | .gear gear => { s with gear := gearOf gear }
  | .sportMode sport => { s with sportMode := sport }
  | .steeringAngle angleDeg => { s with steeringAngle := clampAngle angleDeg }
  | .steeringRate rateDegsPerSec => { s with steeringRate := rateDegsPerSec }
  | .wheelSpeedFL speed => { s with wheelSpeedFL := speed }
  | .wheelSpeedFR speed => { s with wheelSpeedFR := speed }
  | .wheelSpeedRL speed => { s with wheelSpeedRL := speed }
  | .wheelSpeedRR speed => { s with wheelSpeedRR := speed }
  | .allWheelSpeeds speed =>
    { s with
      wheelSpeedFL := speed
      wheelSpeedFR := speed
      wheelSpeedRL := speed
      wheelSpeedRR := speed }

def asc1Status (s : BmwClusterSim) : UInt8 :=
  (if s.dscOff then 0x01 else 0) ||| (if s.dscActive then 0x02 else 0) |||
    (if s.tractionActive then 0x04 else 0) ||| (if s.absActive then 0x08 else 0)

def sendASC1 (s : BmwClusterSim) : CanFrame where
  id := Bmw.asc1Id
  dlc := 8
  data := #v[s.asc1Status, s.tickCounter.toUInt8, 0, 0, 0, 0, 0, 0]

def sendEGS (s : BmwClusterSim) : CanFrame where
  id := Bmw.egsId
  dlc := 8
  data :=
    #v[s.gear.toUInt8, if s.sportMode then 0x01 else 0x00, s.gear.toUInt8, s.tickCounter.toUInt8,
      0, 0, 0, 0]

/-- The product is an `int`, and is stored in 16 bits. -/
def scaledSteering (value : Int16) : Int16 := Int16.ofInt (value.toInt * 10)

def sendSAS (s : BmwClusterSim) : CanFrame where
  id := Bmw.sasId
  dlc := 8
  data :=
    let angleScaled := (scaledSteering s.steeringAngle).toUInt16
    let rateScaled := (scaledSteering s.steeringRate).toUInt16
    #v[lowByte angleScaled, highByte angleScaled, lowByte rateScaled, highByte rateScaled, 0x03,
      0, 0, 0]

/-- From tenths to sixteenths, in an `int` that is stored in 16 bits. -/
def scaledSpeed (speed : UInt16) : UInt16 := UInt16.ofNat (speed.toNat * 16 / 10)

def wheelFrame (id : UInt32) (left right : UInt16) : CanFrame where
  id := id
  dlc := 8
  data :=
    #v[lowByte (scaledSpeed left), highByte (scaledSpeed left), lowByte (scaledSpeed right),
      highByte (scaledSpeed right), 0x00, 0, 0, 0]

def frameFront (s : BmwClusterSim) : CanFrame :=
  wheelFrame Bmw.abs1Id s.wheelSpeedFL s.wheelSpeedFR

def frameRear (s : BmwClusterSim) : CanFrame :=
  wheelFrame Bmw.abs2Id s.wheelSpeedRL s.wheelSpeedRR

def sendABS (s : BmwClusterSim) : List CanFrame := [s.frameFront, s.frameRear]

def due (s : BmwClusterSim) : List CanFrame :=
  (if s.ascEnabled ∧ s.tickCounter % 5 = 0 then [s.sendASC1] else []) ++
  (if s.egsEnabled ∧ s.tickCounter % 5 = 1 then [s.sendEGS] else []) ++
  (if s.sasEnabled then [s.sendSAS] else []) ++
  (if s.absEnabled ∧ s.tickCounter % 2 = 0 then s.sendABS else [])

def send (accepts : CanFrame → Bool) (s : BmwClusterSim) (frame : CanFrame) : BmwClusterSim :=
  if accepts frame then { s with framesSent := s.framesSent + 1 }
  else { s with framesFailed := s.framesFailed + 1 }

def tick (s : BmwClusterSim) (accepts : CanFrame → Bool) : BmwClusterSim × List CanFrame :=
  let ticked := { s with tickCounter := s.tickCounter + 1 }
  (ticked.due.foldl (send accepts) ticked, ticked.due)

end BmwClusterSim

end SpeeduinoDash
