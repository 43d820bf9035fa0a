import SpeeduinoDash.Clamping
import SpeeduinoDash.DataProvider
import SpeeduinoDash.Freshness

set_option autoImplicit false

/-!
# The numbers on the display

A decoded value is scaled and clamped into a field of the engine data, packed, converted by the
HMI's worker thread and scaled back by a getter. With exact rationals the number shown is the
fixed-point number of the value.
-/
namespace SpeeduinoDash
open Lib.MsgPack Lib.Rounding Lib.Runs

inductive Gauge where
  | rpm
  | coolantTemp
  | intakeTemp
  | tps
  | mapKpa
  | lambda
  | ignitionAdvance
  | injectorDuty
  | gear
  | vehicleSpeed
  | fuelPressure
  | oilPressure
  | oilTemp
deriving DecidableEq

namespace Gauge

def signal : Gauge → String
  | .rpm => "rpm"
  | .coolantTemp => "coolant_temp"
  | .intakeTemp => "intake_temp"
  | .tps => "tps"
  | .mapKpa => "map"
  | .lambda => "lambda1"
  | .ignitionAdvance => "ignition_advance"
  | .injectorDuty => "injector_duty"
  | .gear => "gear"
  | .vehicleSpeed => "vehicle_speed"
  | .fuelPressure => "fuel_pressure"
  | .oilPressure => "oil_pressure"
  | .oilTemp => "oil_temp"

/-- How many units of the field make one unit of the signal. -/
def factor : Gauge → ℚ
  | .lambda => 1000
  | .mapKpa | .ignitionAdvance | .vehicleSpeed => 10
  | _ => 1

def least : Gauge → ℤ
  | .coolantTemp | .intakeTemp | .oilTemp => -128
  | .ignitionAdvance => -32768
  | _ => 0

def greatest : Gauge → ℤ
  | .coolantTemp | .intakeTemp | .oilTemp => 127
  | .ignitionAdvance => 32767
  | .tps | .injectorDuty | .gear => 255
  | _ => 65535

def resolution (gauge : Gauge) : ℚ := 1 / gauge.factor

/-- The ends of the field's range, as the display shows them. -/
def low (gauge : Gauge) : ℚ := gauge.least / gauge.factor

def high (gauge : Gauge) : ℚ := gauge.greatest / gauge.factor

theorem factor_pos (gauge : Gauge) : 0 < gauge.factor := by
  cases gauge <;> decide

theorem least_le_greatest (gauge : Gauge) : gauge.least ≤ gauge.greatest := by
  cases gauge <;> decide

end Gauge

namespace DataProvider

def shown (p : DataProvider) : Gauge → ℚ
  | .rpm => p.rpm
  | .coolantTemp => p.coolantTemp
  | .intakeTemp => p.intakeTemp
  | .tps => p.tps
  | .mapKpa => p.mapKpa
  | .lambda => p.lambda
  | .ignitionAdvance => p.ignitionAdvance
  | .injectorDuty => p.injectorDuty
  | .gear => p.gear
  | .vehicleSpeed => p.vehicleSpeed
  | .fuelPressure => p.fuelPressure
  | .oilPressure => p.oilPressure
  | .oilTemp => p.oilTemp

/-- The worker thread drops a message that does not convert. -/
def receiveEngineData (codec : Codec EngineData) (p : DataProvider) (message : List UInt8) :
    DataProvider :=
  match codec.convert message with
  | some data => (p.onEngineDataReceived data).1
  | none => p

theorem receiveEngineData_pack (codec : Codec EngineData) (p : DataProvider) (data : EngineData) :
    p.receiveEngineData codec (codec.pack data) = { p with data := data } := by
  rw [receiveEngineData, codec.convert_pack]
  rfl

/-- The provider after it received what a parser with the signal values `lookup` publishes: the
    main loop may change the flags of `updateEngineData`, no other field. -/
def received (codec : Codec EngineData) (p : DataProvider) (lookup : String → Option ℚ)
    (timestampMs : UInt32) (flags : UInt16) : DataProvider :=
  p.receiveEngineData codec
    (codec.pack { updateEngineData lookup timestampMs with flags := flags })

theorem receive_publishedData (codec : Codec EngineData) (p : DataProvider)
    (ops : List (CanParser.Op ℚ)) (h : CanParser.accepted ops ≠ []) (canTimeoutMs : UInt32)
    (clockMs : ℕ) :
    ∃ timestampMs flags, p.receiveEngineData codec (codec.pack
      ((run CanParser.step {} ops).publishedData canTimeoutMs clockMs)) =
        p.received codec (run CanParser.step {} ops).getSignalValue timestampMs flags := by
  have hdata := CanParser.run_engineData ops h
  unfold CanParser.publishedData CanParser.getEngineData
  rw [hdata]
  dsimp only
  split_ifs
  · exact ⟨_, _, rfl⟩
  · exact ⟨_, _, rfl⟩

theorem shown_received (codec : Codec EngineData) (p : DataProvider)
    (lookup : String → Option ℚ) (timestampMs : UInt32) (flags : UInt16) (gauge : Gauge) :
    (p.received codec lookup timestampMs flags).shown gauge =
      fixedPoint gauge.factor gauge.least gauge.greatest (getValue lookup gauge.signal) := by
  have hten : (10.0 : ℚ) = 10 := by norm_num
  have hthousand : (1000.0 : ℚ) = 1000 := by norm_num
  rw [received, receiveEngineData_pack]
  -- The fields of one width and one factor are alike.
  cases gauge with
  | rpm | fuelPressure | oilPressure =>
    change (((clampU16 _).toNat : ℤ) : ℚ) = fixedPoint 1 0 65535 _
    rw [fixedPoint_one, clampU16_toInt]
    rfl
  | coolantTemp | intakeTemp | oilTemp =>
    change ((clampI8 _).toInt : ℚ) = fixedPoint 1 (-128) 127 _
    rw [fixedPoint_one, clampI8_toInt]
    rfl
  | tps | injectorDuty | gear =>
    change (((clampU8 _).toNat : ℤ) : ℚ) = fixedPoint 1 0 255 _
    rw [fixedPoint_one, clampU8_toInt]
    rfl
  | mapKpa | vehicleSpeed =>
    change ((clampU16 (_ * 10.0)).toNat : ℚ) / 10.0 = fixedPoint 10 0 65535 _
    rw [fixedPoint, hten, ← clampU16_toInt, Int.cast_natCast]
    rfl
  | lambda =>
    change ((clampU16 (_ * 1000.0)).toNat : ℚ) / 1000.0 = fixedPoint 1000 0 65535 _
    rw [fixedPoint, hthousand, ← clampU16_toInt, Int.cast_natCast]
    rfl
  | ignitionAdvance =>
    change ((clampI16 (_ * 10.0)).toInt : ℚ) / 10.0 = fixedPoint 10 (-32768) 32767 _
    rw [fixedPoint, hten, ← clampI16_toInt]
    rfl

theorem shown_near (codec : Codec EngineData) (p : DataProvider) (lookup : String → Option ℚ)
    (timestampMs : UInt32) (flags : UInt16) (gauge : Gauge) :
    |(p.received codec lookup timestampMs flags).shown gauge -
      saturate gauge.low gauge.high (getValue lookup gauge.signal)| < gauge.resolution := by
  rw [shown_received]
  exact abs_fixedPoint_sub_lt gauge.factor_pos _

/-- Every number shown is within one unit of its field of the clamped signal value and stays
    within the range of the field, at its ends for the values beyond them. It grows with its own
    signal value, whatever the others are. -/
theorem shown_faithful (codec : Codec EngineData) (p p' : DataProvider)
    (lookup lookup' : String → Option ℚ) (timestampMs timestampMs' : UInt32)
    (flags flags' : UInt16) (gauge : Gauge) :
    let value := getValue lookup gauge.signal
    let shown := (p.received codec lookup timestampMs flags).shown gauge
    |shown - saturate gauge.low gauge.high value| < gauge.resolution ∧
      (gauge.low ≤ shown ∧ shown ≤ gauge.high) ∧
      (value ≤ gauge.low → shown = gauge.low) ∧
      (gauge.high ≤ value → shown = gauge.high) ∧
      (value ≤ getValue lookup' gauge.signal →
        shown ≤ (p'.received codec lookup' timestampMs' flags').shown gauge) := by
  have hfactor := gauge.factor_pos
  have hrange := gauge.least_le_greatest
  refine ⟨shown_near codec p lookup timestampMs flags gauge, ?_⟩
  rw [shown_received, shown_received]
  refine ⟨?_, ?_, ?_, ?_⟩
  · exact fixedPoint_mem hfactor hrange _
  · exact fixedPoint_of_le hfactor hrange
  · exact fixedPoint_of_ge hfactor hrange
  · intro hle
    exact fixedPoint_mono hfactor hle

/-- A pressure beyond the range of the field does not wrap. -/
theorem shown_faithful_map :
    Gauge.mapKpa.high ≤ getValue (fun _ => some (7000 : ℚ)) Gauge.mapKpa.signal ∧
      (received EngineData.codec {} (fun _ => some 7000) 0 0).shown .mapKpa = 6553.5 := by
  have hvalue : getValue (fun _ => some (7000 : ℚ)) Gauge.mapKpa.signal = 7000 :=
    getValue_of_mem rfl
  have hhigh : Gauge.mapKpa.high = 6553.5 := by
    norm_num [Gauge.high, Gauge.greatest, Gauge.factor]
  have hbeyond : Gauge.mapKpa.high ≤ getValue (fun _ => some (7000 : ℚ)) Gauge.mapKpa.signal := by
    rw [hvalue, hhigh]
    norm_num
  have hshown := shown_faithful EngineData.codec {} {} (fun _ => some 7000) (fun _ => some 7000)
    0 0 0 0 .mapKpa
  exact ⟨hbeyond, (hshown.2.2.2.1 hbeyond).trans hhigh⟩

end DataProvider

end SpeeduinoDash
