import Mathlib.Data.Rat.Floor
import SpeeduinoDash.CanInterface
import SpeeduinoDash.Lib.ByteOrder
import SpeeduinoDash.Lib.Rounding

set_option autoImplicit false

/-!
# The wideband forwarder

The lambda of an external sensor in the frame of one of four controllers, with exact rationals.
`accepts` says whether the interface sends the frame.
-/
namespace SpeeduinoDash
open Lib.ByteOrder Lib.Rounding

namespace Wideband

def aemXSeriesId : UInt32 := 0x180
def innovateLC2Id : UInt32 := 0x190
def plxSmAfrId : UInt32 := 0x181
def spartan14Point7 : UInt32 := 0x182

def lambdaMin : ℚ := 1 / 2
def lambdaMax : ℚ := 2
def stoichAfr : ℚ := 147 / 10

end Wideband

inductive WidebandFormat where
  | aemXSeries
  | innovateLC2
  | plxSmAfr
  | spartan14Point7
deriving DecidableEq

structure WidebandForwarder where
  format : WidebandFormat := .aemXSeries
  canId : UInt32 := Wideband.aemXSeriesId
  rateHz : UInt32 := 20
  enabled : Bool := false
  lambda : ℚ := 1
  o2Millivolts : UInt16 := 450
  sensorStatus : UInt8 := 0
  heaterStatus : UInt8 := 0
  framesSent : UInt32 := 0
  framesFailed : UInt32 := 0

namespace WidebandForwarder

def setFormat (f : WidebandForwarder) (format : WidebandFormat) : WidebandForwarder :=
  { f with
    format
    canId :=
      match format with
      | .aemXSeries => Wideband.aemXSeriesId
      | .innovateLC2 => Wideband.innovateLC2Id
      | .plxSmAfr => Wideband.plxSmAfrId
      | .spartan14Point7 => Wideband.spartan14Point7 }

def setRate (f : WidebandForwarder) (rateHz : UInt32) : WidebandForwarder :=
  { f with rateHz := if rateHz < 1 then 1 else if 50 < rateHz then 50 else rateHz }

def clampLambda (lambda : ℚ) : ℚ :=
  if lambda < Wideband.lambdaMin then Wideband.lambdaMin
  else if Wideband.lambdaMax < lambda then Wideband.lambdaMax
  else lambda

def setLambda (f : WidebandForwarder) (lambda : ℚ) : WidebandForwarder :=
  { f with lambda := clampLambda lambda }

def setAFR (f : WidebandForwarder) (afr : ℚ) : WidebandForwarder :=
  f.setLambda (afr / Wideband.stoichAfr)

/-- The cast drops the fraction; one that does not fit (undefined in the code) keeps 16 bits. -/
def castUInt16 (x : ℚ) : UInt16 := UInt16.ofNat (towardZero x).toNat

def afr (f : WidebandForwarder) : ℚ := f.lambda * Wideband.stoichAfr

def buildAEMFrame (f : WidebandForwarder) : CanFrame where
  id := f.canId
  dlc := 8
  data :=
    let lambdaScaled := castUInt16 (f.lambda * 10000)
    #v[highByte lambdaScaled, lowByte lambdaScaled, highByte f.o2Millivolts,
      lowByte f.o2Millivolts, f.sensorStatus, f.heaterStatus, 0, 0]

/-- The warmup is the inverse of the heater status, in 8 bits. -/
def buildInnovateFrame (f : WidebandForwarder) : CanFrame where
  id := f.canId
  dlc := 8
  data :=
    let afrScaled := castUInt16 (f.afr * 10)
    let lambdaScaled := castUInt16 (f.lambda * 1000)
    #v[highByte afrScaled, lowByte afrScaled, highByte lambdaScaled, lowByte lambdaScaled,
      100 - f.heaterStatus, f.sensorStatus, 0, 0]

def buildPLXFrame (f : WidebandForwarder) : CanFrame where
  id := f.canId
  dlc := 8
  data :=
    let afrScaled := castUInt16 (f.afr * 100)
    #v[lowByte afrScaled, highByte afrScaled, f.sensorStatus, 0, 0, 0, 0, 0]

def buildSpartanFrame (f : WidebandForwarder) : CanFrame where
  id := f.canId
  dlc := 8
  data :=
    let lambdaScaled := castUInt16 (f.lambda * 1000)
    #v[highByte lambdaScaled, lowByte lambdaScaled, highByte f.o2Millivolts,
      lowByte f.o2Millivolts, 128, f.heaterStatus, f.sensorStatus, 0]

def buildFrame (f : WidebandForwarder) : CanFrame :=
  match f.format with
  | .aemXSeries => f.buildAEMFrame
  | .innovateLC2 => f.buildInnovateFrame
  | .plxSmAfr => f.buildPLXFrame
  | .spartan14Point7 => f.buildSpartanFrame

def sendNow (f : WidebandForwarder) (accepts : CanFrame → Bool) :
    WidebandForwarder × Option CanFrame :=
  if f.enabled = false then (f, none)
  else if accepts f.buildFrame then ({ f with framesSent := f.framesSent + 1 }, some f.buildFrame)
  else ({ f with framesFailed := f.framesFailed + 1 }, some f.buildFrame)

inductive Op where
  | setFormat (format : WidebandFormat)
  | setCanId (id : UInt32)
  | setRate (rateHz : UInt32)
  | setEnabled (enabled : Bool)
  | setLambda (lambda : ℚ)
  | setAFR (afr : ℚ)
  | setO2Millivolts (mv : UInt16)
  | setSensorStatus (status : UInt8)
  | setHeaterStatus (status : UInt8)
  | sendNow (accepts : CanFrame → Bool)

def step (f : WidebandForwarder) : Op → WidebandForwarder
  | .setFormat format => f.setFormat format
  | .setCanId id => { f with canId := id }
  | .setRate rateHz => f.setRate rateHz
  | .setEnabled enabled => { f with enabled }
  | .setLambda lambda => f.setLambda lambda
  | .setAFR afr => f.setAFR afr
  | .setO2Millivolts mv => { f with o2Millivolts := mv }
  | .setSensorStatus status => { f with sensorStatus := status }
  | .setHeaterStatus status => { f with heaterStatus := status }
  | .sendNow accepts => (f.sendNow accepts).1

end WidebandForwarder

end SpeeduinoDash
