import SpeeduinoDash.Lib.MsgPack

set_option autoImplicit false

/-!
# The messages between the services

The records of `zmq_messages.hpp`. A record travels as a MessagePack array of its fields; the
codecs below are the ones of that format.
-/
namespace SpeeduinoDash
open Lib.MsgPack

structure EngineData where
  timestampMs : UInt32 := 0
  rpm : UInt16 := 0
  coolantTemp : Int8 := 0
  intakeTemp : Int8 := 0
  tps : UInt8 := 0
  mapKpa : UInt16 := 0
  lambda : UInt16 := 0
  ignitionAdvance : Int16 := 0
  injectorDuty : UInt8 := 0
  gear : UInt8 := 0
  vehicleSpeed : UInt16 := 0
  fuelPressure : UInt16 := 0
  oilPressure : UInt16 := 0
  boostTarget : UInt16 := 0
  baro : UInt16 := 0
  oilTemp : Int8 := 0
  fuelTemp : Int8 := 0
  batteryVoltage : UInt16 := 0
  fuelConsumption : UInt16 := 0
  fuelLoad : UInt8 := 0
  pw1 : UInt16 := 0
  pw2 : UInt16 := 0
  pw3 : UInt16 := 0
  pw4 : UInt16 := 0
  vvtIntake : Int16 := 0
  vvtExhaust : Int16 := 0
  torqueIndexed : UInt8 := 0
  torqueIndicated : UInt8 := 0
  flags : UInt16 := 0
deriving DecidableEq

namespace EngineData

def flagCelOn : UInt16 := 0x0001
def flagOverheat : UInt16 := 0x0002
def flagCanOk : UInt16 := 0x0004
def flagEngineRun : UInt16 := 0x0008
def flagClutchIn : UInt16 := 0x0010
def flagBrakeOn : UInt16 := 0x0020
def flagCruiseOn : UInt16 := 0x0040
def flagLaunchSoft : UInt16 := 0x0100
def flagLaunchHard : UInt16 := 0x0200
def flagFlatShift : UInt16 := 0x0400
def flagRevLimit : UInt16 := 0x0800
def flagLowOilP : UInt16 := 0x1000
def flagLowFuelP : UInt16 := 0x2000

def isCelOn (data : EngineData) : Bool := data.flags &&& flagCelOn != 0

def isOverheat (data : EngineData) : Bool := data.flags &&& flagOverheat != 0

def isCanOk (data : EngineData) : Bool := data.flags &&& flagCanOk != 0

def hasFlag (data : EngineData) (flag : UInt16) : Bool := data.flags &&& flag != 0

theorem hasFlag_iff (data : EngineData) (flag : UInt16) :
    data.hasFlag flag = true ↔ data.flags &&& flag ≠ 0 := bne_iff_ne

end EngineData

structure ReverseEvent where
  timestampMs : UInt32 := 0
  engaged : Bool := false
  source : UInt8 := 0
deriving DecidableEq

structure CanCommand where
  canId : UInt32 := 0
  data : Vector UInt8 8 := Vector.replicate 8 0
  dlc : UInt8 := 0
deriving DecidableEq

structure CanCommandResponse where
  success : Bool := false
  errorCode : UInt8 := 0
  errorMessage : String := ""
deriving DecidableEq

def EngineData.codec : Codec EngineData :=
  (Codec.tagged 0xdc (Codec.tagged 0x00 (Codec.tagged 0x1d
    (uint32.seq (uint16.seq (int8.seq (int8.seq (uint8.seq (uint16.seq (uint16.seq (int16.seq
    (uint8.seq (uint8.seq (uint16.seq (uint16.seq (uint16.seq (uint16.seq (uint16.seq (int8.seq
    (int8.seq (uint16.seq (uint16.seq (uint8.seq (uint16.seq (uint16.seq (uint16.seq (uint16.seq
    (int16.seq (int16.seq (uint8.seq (uint8.seq uint16))))))))))))))))))))))))))))))).imap
    (fun (timestampMs, rpm, coolantTemp, intakeTemp, tps, mapKpa, lambda, ignitionAdvance,
      injectorDuty, gear, vehicleSpeed, fuelPressure, oilPressure, boostTarget, baro, oilTemp,
      fuelTemp, batteryVoltage, fuelConsumption, fuelLoad, pw1, pw2, pw3, pw4, vvtIntake,
      vvtExhaust, torqueIndexed, torqueIndicated, flags) =>
      { timestampMs, rpm, coolantTemp, intakeTemp, tps, mapKpa, lambda, ignitionAdvance,
        injectorDuty, gear, vehicleSpeed, fuelPressure, oilPressure, boostTarget, baro, oilTemp,
        fuelTemp, batteryVoltage, fuelConsumption, fuelLoad, pw1, pw2, pw3, pw4, vvtIntake,
        vvtExhaust, torqueIndexed, torqueIndicated, flags })
    (fun data => (data.timestampMs, data.rpm, data.coolantTemp, data.intakeTemp, data.tps,
      data.mapKpa, data.lambda, data.ignitionAdvance, data.injectorDuty, data.gear,
      data.vehicleSpeed, data.fuelPressure, data.oilPressure, data.boostTarget, data.baro,
      data.oilTemp, data.fuelTemp, data.batteryVoltage, data.fuelConsumption, data.fuelLoad,
      data.pw1, data.pw2, data.pw3, data.pw4, data.vvtIntake, data.vvtExhaust,
      data.torqueIndexed, data.torqueIndicated, data.flags))
    (fun _ => rfl)

def ReverseEvent.codec : Codec ReverseEvent :=
  (Codec.tagged 0x93 (uint32.seq (bool.seq uint8))).imap
    (fun x => ⟨x.1, x.2.1, x.2.2⟩) (fun e => (e.timestampMs, e.engaged, e.source)) (fun _ => rfl)

def CanCommand.codec : Codec CanCommand :=
  (Codec.tagged 0x93 (uint32.seq (bin8.seq uint8))).imap
    (fun x => ⟨x.1, x.2.1, x.2.2⟩) (fun cmd => (cmd.canId, cmd.data, cmd.dlc)) (fun _ => rfl)

end SpeeduinoDash
