import Mathlib.Data.Set.Defs
import Mathlib.Tactic.IntervalCases
import Mathlib.Tactic.MkIffOfInductiveProp
import SpeeduinoDash.BmwClusterSim
import SpeeduinoDash.Lib.Rounding

set_option autoImplicit false

/-!
# What the cluster reads

The steering angle is clamped to what its field holds in tenths. The steering rate and the wheel
speeds are not, and the 16 bits they are stored in keep what is left of the product.
-/
namespace SpeeduinoDash
open Lib.ByteOrder Lib.Rounding

def CanFrame.signedAt (f : CanFrame) (i : ℕ) : ℤ :=
  (UInt16.ofNat (littleWord f.byteAt i)).toInt16.toInt

theorem CanFrame.signedAt_of_halves {f : CanFrame} {i : ℕ} {value : Int16}
    (hlow : f.byteAt i = lowByte value.toUInt16)
    (hhigh : f.byteAt (i + 1) = highByte value.toUInt16) : f.signedAt i = value.toInt := by
  rw [signedAt, littleWord_of_halves hlow hhigh, UInt16.ofNat_toNat, Int16.toInt16_toUInt16]

namespace BmwClusterSim

/-- A field from `lo` to `hi` that reads `raw` carries the value `n / d`. -/
@[mk_iff]
structure Carries (lo hi n d raw : ℤ) : Prop where
  fits : lo * d ≤ n → n ≤ hi * d → raw * d - n ≤ d ∧ n - raw * d ≤ d
  below : n < lo * d → raw = lo
  above : hi * d < n → raw = hi

structure Readings where
  steeringAngle : Int16
  steeringRate : Int16
  wheelSpeedFL : UInt16
  wheelSpeedFR : UInt16
  wheelSpeedRL : UInt16
  wheelSpeedRR : UInt16

def setAll (s : BmwClusterSim) (r : Readings) : BmwClusterSim :=
  [.steeringAngle r.steeringAngle, .steeringRate r.steeringRate, .wheelSpeedFL r.wheelSpeedFL,
    .wheelSpeedFR r.wheelSpeedFR, .wheelSpeedRL r.wheelSpeedRL,
    .wheelSpeedRR r.wheelSpeedRR].foldl set s

structure Fields where
  steeringAngle : ℤ
  steeringRate : ℤ
  wheelSpeedFL : ℤ
  wheelSpeedFR : ℤ
  wheelSpeedRL : ℤ
  wheelSpeedRR : ℤ

def fields (s : BmwClusterSim) : Fields where
  steeringAngle := s.sendSAS.signedAt 0
  steeringRate := s.sendSAS.signedAt 2
  wheelSpeedFL := littleWord s.frameFront.byteAt 0
  wheelSpeedFR := littleWord s.frameFront.byteAt 2
  wheelSpeedRL := littleWord s.frameRear.byteAt 0
  wheelSpeedRR := littleWord s.frameRear.byteAt 2

/-- Tenths of a degree, of the angle as clamped. -/
def CarriesAngle (angle : Int16) (raw : ℤ) : Prop :=
  Carries (-32768) 32767 (10 * saturate (-720) 720 angle.toInt) 1 raw

/-- Tenths of a degree per second. -/
def CarriesRate (rate : Int16) (raw : ℤ) : Prop := Carries (-32768) 32767 (10 * rate.toInt) 1 raw

/-- Sixteenths of a km/h, of a speed in tenths. -/
def CarriesSpeed (speed : UInt16) (raw : ℤ) : Prop := Carries 0 65535 (16 * speed.toNat) 10 raw

structure Faithful (r : Readings) (f : Fields) : Prop where
  steeringAngle : CarriesAngle r.steeringAngle f.steeringAngle
  steeringRate : CarriesRate r.steeringRate f.steeringRate
  wheelSpeedFL : CarriesSpeed r.wheelSpeedFL f.wheelSpeedFL
  wheelSpeedFR : CarriesSpeed r.wheelSpeedFR f.wheelSpeedFR
  wheelSpeedRL : CarriesSpeed r.wheelSpeedRL f.wheelSpeedRL
  wheelSpeedRR : CarriesSpeed r.wheelSpeedRR f.wheelSpeedRR

structure RisesWith (r r' : Readings) (f f' : Fields) : Prop where
  steeringAngle :
    r.steeringAngle.toInt ≤ r'.steeringAngle.toInt → f.steeringAngle ≤ f'.steeringAngle
  steeringRate : r.steeringRate.toInt ≤ r'.steeringRate.toInt → f.steeringRate ≤ f'.steeringRate
  wheelSpeedFL : r.wheelSpeedFL.toNat ≤ r'.wheelSpeedFL.toNat → f.wheelSpeedFL ≤ f'.wheelSpeedFL
  wheelSpeedFR : r.wheelSpeedFR.toNat ≤ r'.wheelSpeedFR.toNat → f.wheelSpeedFR ≤ f'.wheelSpeedFR
  wheelSpeedRL : r.wheelSpeedRL.toNat ≤ r'.wheelSpeedRL.toNat → f.wheelSpeedRL ≤ f'.wheelSpeedRL
  wheelSpeedRR : r.wheelSpeedRR.toNat ≤ r'.wheelSpeedRR.toNat → f.wheelSpeedRR ≤ f'.wheelSpeedRR

/-- The product is within 16 bits, or what is left of it is the least there is. -/
def RateFits (rate : Int16) : Prop :=
  -3276 ≤ rate.toInt ∧ rate.toInt ≤ 3276 ∨ rate.toInt = -16384

def SpeedFits (speed : UInt16) : Prop := speed.toNat ≤ 40959

structure Readings.InRange (r : Readings) : Prop where
  steeringRate : RateFits r.steeringRate
  wheelSpeedFL : SpeedFits r.wheelSpeedFL
  wheelSpeedFR : SpeedFits r.wheelSpeedFR
  wheelSpeedRL : SpeedFits r.wheelSpeedRL
  wheelSpeedRR : SpeedFits r.wheelSpeedRR

theorem sendSAS_angle (s : BmwClusterSim) :
    s.sendSAS.signedAt 0 = (scaledSteering s.steeringAngle).toInt :=
  CanFrame.signedAt_of_halves rfl rfl

theorem sendSAS_rate (s : BmwClusterSim) :
    s.sendSAS.signedAt 2 = (scaledSteering s.steeringRate).toInt :=
  CanFrame.signedAt_of_halves rfl rfl

theorem wheelFrame_left (id : UInt32) (left right : UInt16) :
    littleWord (wheelFrame id left right).byteAt 0 = (scaledSpeed left).toNat :=
  littleWord_of_halves rfl rfl

theorem wheelFrame_right (id : UInt32) (left right : UInt16) :
    littleWord (wheelFrame id left right).byteAt 2 = (scaledSpeed right).toNat :=
  littleWord_of_halves rfl rfl

theorem fields_setAll (s : BmwClusterSim) (r : Readings) :
    (s.setAll r).fields =
      { steeringAngle := (scaledSteering (clampAngle r.steeringAngle)).toInt
        steeringRate := (scaledSteering r.steeringRate).toInt
        wheelSpeedFL := (scaledSpeed r.wheelSpeedFL).toNat
        wheelSpeedFR := (scaledSpeed r.wheelSpeedFR).toNat
        wheelSpeedRL := (scaledSpeed r.wheelSpeedRL).toNat
        wheelSpeedRR := (scaledSpeed r.wheelSpeedRR).toNat } := by
  rw [fields, sendSAS_angle, sendSAS_rate, frameFront, frameRear, wheelFrame_left,
    wheelFrame_right, wheelFrame_left, wheelFrame_right]
  rfl

theorem clampAngle_toInt (angle : Int16) :
    (clampAngle angle).toInt = saturate (-720) 720 angle.toInt := by
  have hlow : (-720 : Int16).toInt = -720 := rfl
  have hhigh : (720 : Int16).toInt = 720 := rfl
  unfold clampAngle saturate
  simp only [Int16.lt_iff_toInt_lt, hlow, hhigh]
  split_ifs <;> omega

theorem scaledSteering_toInt (value : Int16) :
    (scaledSteering value).toInt = (value.toInt * 10).bmod 65536 := Int16.toInt_ofInt

theorem scaledAngle_toInt (angle : Int16) :
    (scaledSteering (clampAngle angle)).toInt = 10 * saturate (-720) 720 angle.toInt := by
  rw [scaledSteering_toInt, clampAngle_toInt, Int.bmod, saturate]
  omega

theorem carriesAngle_scaled (angle : Int16) :
    CarriesAngle angle (scaledSteering (clampAngle angle)).toInt := by
  rw [CarriesAngle, scaledAngle_toInt, carries_iff, saturate]
  omega

theorem scaledRate_toInt {rate : Int16} (h : RateFits rate) :
    (scaledSteering rate).toInt = max (-32768) (10 * rate.toInt) := by
  rw [scaledSteering_toInt]
  rcases h with ⟨hlow, hhigh⟩ | hwraps
  · rw [Int.bmod]
    omega
  · rw [hwraps]
    rfl

theorem carriesRate_iff (rate : Int16) :
    CarriesRate rate (scaledSteering rate).toInt ↔ RateFits rate := by
  by_cases h : RateFits rate
  · refine iff_of_true ?_ h
    rw [CarriesRate, carries_iff, scaledRate_toInt h]
    rw [RateFits] at h
    omega
  · refine iff_of_false (fun hcarries => ?_) h
    have hlow := rate.le_toInt
    have hhigh := rate.toInt_lt
    rw [RateFits, not_or, not_and_or, not_le, not_le] at h
    rcases h.1 with hless | hmore
    · have hleast := hcarries.below (by omega)
      have hsplit := Int.bmod_add_bdiv (rate.toInt * 10) 65536
      rw [scaledSteering_toInt] at hleast
      rw [hleast] at hsplit
      generalize Int.bdiv (rate.toInt * 10) 65536 = wraps at hsplit
      obtain ⟨hlow', hhigh'⟩ : -4 ≤ wraps ∧ wraps ≤ 0 := by omega
      interval_cases wraps <;> omega
    · -- the product is even, the most the field holds is odd
      have hmost := hcarries.above (by omega)
      have hsplit := Int.bmod_add_bdiv (rate.toInt * 10) 65536
      rw [scaledSteering_toInt] at hmost
      rw [hmost] at hsplit
      omega

theorem rate_mono {rate rate' : Int16} (h : RateFits rate) (h' : RateFits rate')
    (hle : rate.toInt ≤ rate'.toInt) :
    (scaledSteering rate).toInt ≤ (scaledSteering rate').toInt := by
  rw [scaledRate_toInt h, scaledRate_toInt h']
  omega

theorem scaledSpeed_toNat (speed : UInt16) :
    (scaledSpeed speed).toNat = speed.toNat * 16 / 10 % 65536 := UInt16.toNat_ofNat'

theorem scaledSpeed_of_fits {speed : UInt16} (h : SpeedFits speed) :
    (scaledSpeed speed).toNat = speed.toNat * 16 / 10 := by
  rw [SpeedFits] at h
  rw [scaledSpeed_toNat, Nat.mod_eq_of_lt (by omega)]

/-- A faster wheel reads slower than the fastest that fits. -/
theorem scaledSpeed_wraps {speed : UInt16} (h : ¬ SpeedFits speed) :
    (scaledSpeed speed).toNat = speed.toNat * 16 / 10 - 65536 := by
  have hlt : speed.toNat < 65536 := speed.toNat_lt
  rw [SpeedFits] at h
  rw [scaledSpeed_toNat, Nat.mod_eq_sub_mod (by omega), Nat.mod_eq_of_lt (by omega)]

theorem carriesSpeed_iff (speed : UInt16) :
    CarriesSpeed speed (scaledSpeed speed).toNat ↔ SpeedFits speed := by
  have hlt : speed.toNat < 65536 := speed.toNat_lt
  by_cases h : SpeedFits speed
  · refine iff_of_true ?_ h
    rw [CarriesSpeed, carries_iff, scaledSpeed_of_fits h]
    rw [SpeedFits] at h
    omega
  · refine iff_of_false (fun hcarries => ?_) h
    have habove := hcarries.above
    rw [scaledSpeed_wraps h] at habove
    rw [SpeedFits] at h
    omega

theorem speed_mono {speed speed' : UInt16} (h : SpeedFits speed) (h' : SpeedFits speed')
    (hle : speed.toNat ≤ speed'.toNat) :
    ((scaledSpeed speed).toNat : ℤ) ≤ (scaledSpeed speed').toNat := by
  rw [scaledSpeed_of_fits h, scaledSpeed_of_fits h']
  omega

theorem faithful_iff (s : BmwClusterSim) (r : Readings) :
    Faithful r (s.setAll r).fields ↔ r.InRange := by
  rw [fields_setAll]
  constructor
  · rintro ⟨-, hrate, hfl, hfr, hrl, hrr⟩
    exact ⟨(carriesRate_iff _).mp hrate, (carriesSpeed_iff _).mp hfl, (carriesSpeed_iff _).mp hfr,
      (carriesSpeed_iff _).mp hrl, (carriesSpeed_iff _).mp hrr⟩
  · rintro ⟨hrate, hfl, hfr, hrl, hrr⟩
    exact ⟨carriesAngle_scaled _, (carriesRate_iff _).mpr hrate, (carriesSpeed_iff _).mpr hfl,
      (carriesSpeed_iff _).mpr hfr, (carriesSpeed_iff _).mpr hrl, (carriesSpeed_iff _).mpr hrr⟩

theorem risesWith (s s' : BmwClusterSim) {r r' : Readings} (h : r.InRange) (h' : r'.InRange) :
    RisesWith r r' (s.setAll r).fields (s'.setAll r').fields := by
  rw [fields_setAll, fields_setAll]
  refine ⟨fun hle => ?_, rate_mono h.steeringRate h'.steeringRate,
    speed_mono h.wheelSpeedFL h'.wheelSpeedFL, speed_mono h.wheelSpeedFR h'.wheelSpeedFR,
    speed_mono h.wheelSpeedRL h'.wheelSpeedRL, speed_mono h.wheelSpeedRR h'.wheelSpeedRR⟩
  dsimp only
  rw [scaledAngle_toInt, scaledAngle_toInt, saturate, saturate]
  omega

/-- Of any readings, the fields carry each and rise with them exactly where each is in range. -/
theorem fields_carry_iff (s : Readings → BmwClusterSim) (readings : Set Readings) :
    ((∀ r ∈ readings, Faithful r ((s r).setAll r).fields) ∧
      ∀ r ∈ readings, ∀ r' ∈ readings,
        RisesWith r r' ((s r).setAll r).fields ((s r').setAll r').fields) ↔
      ∀ r ∈ readings, r.InRange := by
  constructor
  · rintro ⟨hfaithful, -⟩ r hr
    exact (faithful_iff (s r) r).mp (hfaithful r hr)
  · intro hrange
    exact ⟨fun r hr => (faithful_iff (s r) r).mpr (hrange r hr),
      fun r hr r' hr' => risesWith (s r) (s r') (hrange r hr) (hrange r' hr')⟩

/-- At 3277 degrees per second the cluster reads a rate to the other side. -/
theorem rate_wraps :
    ¬ ((∀ r, Faithful r (({} : BmwClusterSim).setAll r).fields) ∧
      ∀ r r', RisesWith r r' (({} : BmwClusterSim).setAll r).fields
        (({} : BmwClusterSim).setAll r').fields) := by
  rintro ⟨hfaithful, -⟩
  have hrate := (hfaithful ⟨0, 3277, 0, 0, 0, 0⟩).steeringRate.above (by decide)
  revert hrate
  decide

end BmwClusterSim

end SpeeduinoDash
