import SpeeduinoDash.Messages

set_option autoImplicit false

/-!
# The engine data summarised from signal values

`updateEngineData` overwrites every field, so the result is a function of the signal values and
the time.
-/
namespace SpeeduinoDash
open EngineData

class Truncate (R : Type) where
  truncate : R → Int

instance : Truncate Rat where
  truncate q := q.num.tdiv q.den

section Summary

variable {R : Type} [Mul R] [Neg R] [LT R] [DecidableLT R] [OfScientific R] [Truncate R]

def clampTo {α : Type} (lo hi : R) (least greatest : α) (convert : Int → α) (val : R) : α :=
  if val < lo then least
  else if hi < val then greatest
  else convert (Truncate.truncate val)

def clampU16 (val : R) : UInt16 := clampTo 0.0 65535.0 0 65535 UInt16.ofInt val
def clampI16 (val : R) : Int16 := clampTo (-32768.0) 32767.0 (-32768) 32767 Int16.ofInt val
def clampU8 (val : R) : UInt8 := clampTo 0.0 255.0 0 255 UInt8.ofInt val
def clampI8 (val : R) : Int8 := clampTo (-128.0) 127.0 (-128) 127 Int8.ofInt val

def coolantOverheatThresholdC : Int8 := 105
def lowOilPressureKpa : UInt16 := 100
def lowFuelPressureKpa : UInt16 := 200

def raiseIf (condition : Bool) (flag flags : UInt16) : UInt16 :=
  if condition then flags ||| flag else flags

def active (value : R) : Bool := (0.5 : R) < value

variable (lookup : String → Option R)

def getValue (name : String) : R := (lookup name).getD 0.0

def hasValue (name : String) : Bool := (lookup name).isSome

def measurements (timestampMs : UInt32) : EngineData where
  timestampMs := timestampMs
  rpm := clampU16 (getValue lookup "rpm")
  coolantTemp := clampI8 (getValue lookup "coolant_temp")
  intakeTemp := clampI8 (getValue lookup "intake_temp")
  tps := clampU8 (getValue lookup "tps")
  mapKpa := clampU16 (getValue lookup "map" * 10.0)
  lambda := clampU16 (getValue lookup "lambda1" * 1000.0)
  ignitionAdvance := clampI16 (getValue lookup "ignition_advance" * 10.0)
  injectorDuty := clampU8 (getValue lookup "injector_duty")
  gear := clampU8 (getValue lookup "gear")
  vehicleSpeed := clampU16 (getValue lookup "vehicle_speed" * 10.0)
  fuelPressure := clampU16 (getValue lookup "fuel_pressure")
  oilPressure := clampU16 (getValue lookup "oil_pressure")
  boostTarget := clampU16 (getValue lookup "boost_target" * 10.0)
  baro := clampU16 (getValue lookup "baro" * 10.0)
  oilTemp := clampI8 (getValue lookup "oil_temp")
  fuelTemp := clampI8 (getValue lookup "fuel_temp")
  batteryVoltage := clampU16 (getValue lookup "battery_voltage" * 1000.0)
  fuelConsumption := clampU16 (getValue lookup "fuel_consumption" * 100.0)
  fuelLoad := clampU8 (getValue lookup "fuel_load")
  pw1 := clampU16 (getValue lookup "pw1")
  pw2 := clampU16 (getValue lookup "pw2")
  pw3 := clampU16 (getValue lookup "pw3")
  pw4 := clampU16 (getValue lookup "pw4")
  vvtIntake := clampI16 (getValue lookup "vvt_intake" * 10.0)
  vvtExhaust := clampI16 (getValue lookup "vvt_exhaust" * 10.0)
  torqueIndexed := clampU8 (getValue lookup "torque_indexed")
  torqueIndicated := clampU8 (getValue lookup "torque_indicated")

def statusFlags (data : EngineData) : UInt16 :=
  let flags := flagCanOk
  let flags := raiseIf (0 < data.rpm) flagEngineRun flags
  let flags := raiseIf (coolantOverheatThresholdC < data.coolantTemp ||
    active (getValue lookup "overheat_flag")) flagOverheat flags
  let flags := raiseIf (active (getValue lookup "cel_flag") ||
    active (getValue lookup "check_engine")) flagCelOn flags
  let flags := raiseIf (active (getValue lookup "clutch_flag") ||
    active (getValue lookup "clutch_switch")) flagClutchIn flags
  let flags := raiseIf (active (getValue lookup "brake_flag") ||
    active (getValue lookup "brake_switch")) flagBrakeOn flags
  let flags := raiseIf (active (getValue lookup "cruise_flag") ||
    active (getValue lookup "cruise_active")) flagCruiseOn flags
  let flags := raiseIf (hasValue lookup "launch_soft" &&
    active (getValue lookup "launch_soft")) flagLaunchSoft flags
  let flags := raiseIf (hasValue lookup "launch_hard" &&
    active (getValue lookup "launch_hard")) flagLaunchHard flags
  let flags := raiseIf (hasValue lookup "flat_shift_active" &&
    active (getValue lookup "flat_shift_active")) flagFlatShift flags
  let flags := raiseIf (hasValue lookup "rev_limit_active" &&
    active (getValue lookup "rev_limit_active")) flagRevLimit flags
  let flags := raiseIf (1000 < data.rpm && data.oilPressure < lowOilPressureKpa)
    flagLowOilP flags
  raiseIf (0 < data.rpm && 0 < data.fuelPressure && data.fuelPressure < lowFuelPressureKpa)
    flagLowFuelP flags

def updateEngineData (timestampMs : UInt32) : EngineData :=
  { measurements lookup timestampMs with
    flags := statusFlags lookup (measurements lookup timestampMs) }

end Summary

theorem raiseIf_and_ne_zero (condition : Bool) (raised flags flag : UInt16) :
    raiseIf condition raised flags &&& flag ≠ 0 ↔
      flags &&& flag ≠ 0 ∨ condition = true ∧ raised &&& flag ≠ 0 := by
  have hor : (flags ||| raised) &&& flag = (flags &&& flag) ||| (raised &&& flag) := by
    apply UInt16.toBitVec_inj.mp
    ext i hi
    simp [Bool.and_or_distrib_right]
  cases condition with
  | false => simp [raiseIf]
  | true =>
    rw [raiseIf, if_pos rfl, hor, Ne, UInt16.or_eq_zero_iff, Decidable.not_and_iff_not_or_not,
      eq_self, true_and]

section Flags

variable {R : Type} [LT R] [DecidableLT R] [OfScientific R] (lookup : String → Option R)
  (data : EngineData)

theorem statusFlags_canOk : statusFlags lookup data &&& flagCanOk ≠ 0 := by
  unfold statusFlags
  dsimp only
  simp +decide only [raiseIf_and_ne_zero]
  simp

theorem statusFlags_celOn : statusFlags lookup data &&& flagCelOn ≠ 0 ↔
    active (getValue lookup "cel_flag") = true ∨ active (getValue lookup "check_engine") = true := by
  unfold statusFlags
  dsimp only
  simp +decide only [raiseIf_and_ne_zero]
  simp

theorem statusFlags_cruiseOn : statusFlags lookup data &&& flagCruiseOn ≠ 0 ↔
    active (getValue lookup "cruise_flag") = true ∨
      active (getValue lookup "cruise_active") = true := by
  unfold statusFlags
  dsimp only
  simp +decide only [raiseIf_and_ne_zero]
  simp

theorem statusFlags_brakeOn : statusFlags lookup data &&& flagBrakeOn ≠ 0 ↔
    active (getValue lookup "brake_flag") = true ∨
      active (getValue lookup "brake_switch") = true := by
  unfold statusFlags
  dsimp only
  simp +decide only [raiseIf_and_ne_zero]
  simp

theorem statusFlags_overheat : statusFlags lookup data &&& flagOverheat ≠ 0 ↔
    coolantOverheatThresholdC < data.coolantTemp ∨
      active (getValue lookup "overheat_flag") = true := by
  unfold statusFlags
  dsimp only
  simp +decide only [raiseIf_and_ne_zero]
  simp

theorem statusFlags_lowOilP : statusFlags lookup data &&& flagLowOilP ≠ 0 ↔
    1000 < data.rpm ∧ data.oilPressure < lowOilPressureKpa := by
  unfold statusFlags
  dsimp only
  simp +decide only [raiseIf_and_ne_zero]
  simp

theorem statusFlags_lowFuelP : statusFlags lookup data &&& flagLowFuelP ≠ 0 ↔
    (0 < data.rpm ∧ 0 < data.fuelPressure) ∧ data.fuelPressure < lowFuelPressureKpa := by
  unfold statusFlags
  dsimp only
  simp +decide only [raiseIf_and_ne_zero]
  simp

end Flags

end SpeeduinoDash
