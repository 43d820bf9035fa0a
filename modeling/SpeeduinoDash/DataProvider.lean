import SpeeduinoDash.Messages

set_option autoImplicit false

/-!
# The data provider of the HMI

The object that QML reads. Its slots run on the GUI thread, one at a time. A getter of type
`double` divides exactly.
-/
namespace SpeeduinoDash

structure DataProvider where
  data : EngineData := {}
  reverseEngaged : Bool := false

namespace DataProvider

inductive Signal where
  | dataChanged
  | reverseChanged
deriving DecidableEq

def rpm (p : DataProvider) : Int := p.data.rpm.toNat
def coolantTemp (p : DataProvider) : Int := p.data.coolantTemp.toInt
def intakeTemp (p : DataProvider) : Int := p.data.intakeTemp.toInt
def tps (p : DataProvider) : Int := p.data.tps.toNat
def mapKpa (p : DataProvider) : Rat := p.data.mapKpa.toNat / 10.0
def lambda (p : DataProvider) : Rat := p.data.lambda.toNat / 1000.0
def ignitionAdvance (p : DataProvider) : Rat := p.data.ignitionAdvance.toInt / 10.0
def injectorDuty (p : DataProvider) : Int := p.data.injectorDuty.toNat
def gear (p : DataProvider) : Int := p.data.gear.toNat
def vehicleSpeed (p : DataProvider) : Rat := p.data.vehicleSpeed.toNat / 10.0
def fuelPressure (p : DataProvider) : Int := p.data.fuelPressure.toNat
def oilPressure (p : DataProvider) : Int := p.data.oilPressure.toNat
def oilTemp (p : DataProvider) : Int := p.data.oilTemp.toInt

def celOn (p : DataProvider) : Bool := p.data.isCelOn
def overheat (p : DataProvider) : Bool := p.data.isOverheat
def canConnected (p : DataProvider) : Bool := p.data.isCanOk

def onEngineDataReceived (p : DataProvider) (data : EngineData) : DataProvider × Option Signal :=
  ({ p with data := data }, some .dataChanged)

def onReverseEventReceived (p : DataProvider) (event : ReverseEvent) :
    DataProvider × Option Signal :=
  if p.reverseEngaged ≠ event.engaged then
    ({ p with reverseEngaged := event.engaged }, some .reverseChanged)
  else (p, none)

@[simp] theorem onReverseEventReceived_reverseEngaged (p : DataProvider) (event : ReverseEvent) :
    (p.onReverseEventReceived event).1.reverseEngaged = event.engaged := by
  rw [onReverseEventReceived]
  split
  · rfl
  · rename_i h
    exact Decidable.of_not_not h

end DataProvider

end SpeeduinoDash
