import Mathlib.Data.List.Nodup
import Mathlib.Tactic.SplitIfs
import SpeeduinoDash.Config

set_option autoImplicit false

/-!
# The built-in signal tables

One row a signal: name, id, start byte, start bit, length, byte order, sign, scale, offset, unit.
-/
namespace SpeeduinoDash

variable {R : Type} [OfScientific R] [Neg R]

def createHaltechSignals : List (CanSignalDef R) :=
  [⟨"rpm", 0x360, 0, 0, 16, true, false, 1.0, 0.0, "rpm"⟩,
    ⟨"map", 0x360, 2, 0, 16, true, false, 0.1, 0.0, "kPa"⟩,
    ⟨"tps", 0x360, 4, 0, 16, true, false, 0.1, 0.0, "%"⟩,
    ⟨"fuel_pressure", 0x361, 0, 0, 16, true, false, 0.1, -101.3, "kPa"⟩,
    ⟨"oil_pressure", 0x361, 2, 0, 16, true, false, 0.1, -101.3, "kPa"⟩,
    ⟨"fuel_load", 0x361, 4, 0, 16, true, false, 0.1, 0.0, "%"⟩,
    ⟨"injector_duty", 0x362, 0, 0, 16, true, false, 0.1, 0.0, "%"⟩,
    ⟨"ignition_advance", 0x362, 4, 0, 16, true, true, 0.1, 0.0, "deg"⟩,
    ⟨"pw1", 0x364, 0, 0, 16, true, false, 1.0, 0.0, "us"⟩,
    ⟨"pw2", 0x364, 2, 0, 16, true, false, 1.0, 0.0, "us"⟩,
    ⟨"pw3", 0x364, 4, 0, 16, true, false, 1.0, 0.0, "us"⟩,
    ⟨"pw4", 0x364, 6, 0, 16, true, false, 1.0, 0.0, "us"⟩,
    ⟨"lambda1", 0x368, 0, 0, 16, true, false, 0.001, 0.0, ""⟩,
    ⟨"lambda2", 0x368, 2, 0, 16, true, false, 0.001, 0.0, ""⟩,
    ⟨"vehicle_speed", 0x370, 0, 0, 16, true, false, 0.1, 0.0, "km/h"⟩,
    ⟨"gear", 0x370, 3, 0, 8, true, false, 1.0, 0.0, ""⟩,
    ⟨"vvt_intake", 0x370, 4, 0, 16, true, true, 0.1, 0.0, "deg"⟩,
    ⟨"vvt_exhaust", 0x370, 6, 0, 16, true, true, 0.1, 0.0, "deg"⟩,
    ⟨"battery_voltage", 0x372, 1, 0, 8, true, false, 0.1, 0.0, "V"⟩,
    ⟨"boost_target", 0x372, 4, 0, 16, true, false, 0.1, 0.0, "kPa"⟩,
    ⟨"baro", 0x372, 6, 0, 16, true, false, 0.1, 0.0, "kPa"⟩,
    ⟨"coolant_temp", 0x3E0, 0, 0, 16, true, false, 0.1, -273.15, "C"⟩,
    ⟨"intake_temp", 0x3E0, 2, 0, 16, true, false, 0.1, -273.15, "C"⟩,
    ⟨"fuel_temp", 0x3E0, 4, 0, 16, true, false, 0.1, -273.15, "C"⟩]

def createBMWSignals : List (CanSignalDef R) :=
  [⟨"rpm", 0x316, 2, 0, 16, false, false, 0.15625, 0.0, "rpm"⟩,
    ⟨"torque_indexed", 0x316, 1, 0, 8, false, false, 1.0, 0.0, "%"⟩,
    ⟨"torque_indicated", 0x316, 4, 0, 8, false, false, 1.0, 0.0, "%"⟩,
    ⟨"torque_loss", 0x316, 5, 0, 8, false, false, 1.0, 0.0, "%"⟩,
    ⟨"engine_running", 0x316, 0, 0, 1, false, false, 1.0, 0.0, ""⟩,
    ⟨"motor_status_ok", 0x316, 0, 2, 1, false, false, 1.0, 0.0, ""⟩,
    ⟨"coolant_temp", 0x329, 1, 0, 8, false, false, 0.75, -48.0, "C"⟩,
    ⟨"baro", 0x329, 2, 0, 8, false, false, 1.0, 0.0, "kPa"⟩,
    ⟨"tps", 0x329, 5, 0, 8, false, false, 0.392157, 0.0, "%"⟩,
    ⟨"motor_running_329", 0x329, 3, 3, 1, false, false, 1.0, 0.0, ""⟩,
    ⟨"brake_pressed", 0x329, 6, 0, 1, false, false, 1.0, 0.0, ""⟩,
    ⟨"cel_status", 0x545, 0, 1, 1, false, false, 1.0, 0.0, ""⟩,
    ⟨"cruise_active", 0x545, 0, 4, 1, false, false, 1.0, 0.0, ""⟩,
    ⟨"fuel_consumption", 0x545, 1, 0, 16, false, false, 0.01, 0.0, "L/h"⟩,
    ⟨"overheat_warning", 0x545, 3, 3, 1, false, false, 1.0, 0.0, ""⟩,
    ⟨"oil_temp", 0x545, 4, 0, 8, false, false, 0.75, -48.0, "C"⟩]

def createVAGSignals : List (CanSignalDef R) :=
  [⟨"rpm", 0x280, 2, 0, 16, false, false, 0.25, 0.0, "rpm"⟩,
    ⟨"vehicle_speed", 0x5A0, 1, 0, 16, false, false, 0.0075188, 0.0, "km/h"⟩]

/-- An unknown protocol gets the Haltech table. -/
def getSignalsForProtocol (protocol : String) : List (CanSignalDef R) :=
  if protocol = "haltech" then createHaltechSignals
  else if protocol = "bmw" then createBMWSignals
  else if protocol = "vag" then createVAGSignals
  else createHaltechSignals

theorem getSignalsForProtocol_names (protocol : String) :
    ((getSignalsForProtocol protocol : List (CanSignalDef R)).map CanSignalDef.name).Nodup := by
  have hhaltech : ((createHaltechSignals : List (CanSignalDef R)).map CanSignalDef.name).Nodup := by
    simp [createHaltechSignals]
  have hbmw : ((createBMWSignals : List (CanSignalDef R)).map CanSignalDef.name).Nodup := by
    simp [createBMWSignals]
  have hvag : ((createVAGSignals : List (CanSignalDef R)).map CanSignalDef.name).Nodup := by
    simp [createVAGSignals]
  unfold getSignalsForProtocol
  split_ifs
  · exact hhaltech
  · exact hbmw
  · exact hvag
  · exact hhaltech

end SpeeduinoDash
