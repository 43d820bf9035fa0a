import SpeeduinoDash.Clamping
import SpeeduinoDash.SignalDatabase
import SpeeduinoDash.SinceLoad

set_option autoImplicit false

/-!
# The low pressure alarms

The oil alarm takes a missing reading for zero pressure. The fuel alarm asks for a pressure above
zero, and so for a reading. With exact rationals.
-/
namespace SpeeduinoDash.CanParser
open EngineData Lib.Keyed Lib.Rounding Lib.Runs

section Conversions

variable (lookup : String → Option ℚ)

theorem lowOilP_iff (timestampMs : UInt32) :
    (updateEngineData lookup timestampMs).hasFlag flagLowOilP = true ↔
      1001 ≤ getValue lookup "rpm" ∧ getValue lookup "oil_pressure" < 100 := by
  have hrpm := le_clampU16_iff (n := 1001) (by decide) (by decide) (getValue lookup "rpm")
  have hoil := clampU16_lt_iff (n := 100) (by decide) (by decide) (getValue lookup "oil_pressure")
  have hflag := statusFlags_lowOilP lookup (measurements lookup timestampMs)
  rw [UInt16.lt_iff_toNat_lt, UInt16.lt_iff_toNat_lt] at hflag
  rw [hasFlag_iff]
  exact hflag.trans (and_congr hrpm hoil)

theorem lowFuelP_iff (timestampMs : UInt32) :
    (updateEngineData lookup timestampMs).hasFlag flagLowFuelP = true ↔
      (1 ≤ getValue lookup "rpm" ∧ 1 ≤ getValue lookup "fuel_pressure") ∧
        getValue lookup "fuel_pressure" < 200 := by
  have hrpm := le_clampU16_iff (n := 1) (by decide) (by decide) (getValue lookup "rpm")
  have hfuel := le_clampU16_iff (n := 1) (by decide) (by decide) (getValue lookup "fuel_pressure")
  have hlow := clampU16_lt_iff (n := 200) (by decide) (by decide) (getValue lookup "fuel_pressure")
  have hflag := statusFlags_lowFuelP lookup (measurements lookup timestampMs)
  rw [UInt16.lt_iff_toNat_lt, UInt16.lt_iff_toNat_lt, UInt16.lt_iff_toNat_lt] at hflag
  rw [Nat.cast_one] at hrpm hfuel
  rw [hasFlag_iff]
  exact hflag.trans (and_congr (and_congr hrpm hfuel) hlow)

end Conversions

/-- Each alarm that is on comes from a pressure that was read and is low. -/
structure AlarmsJustified (data : EngineData) (last : String → Option ℚ) : Prop where
  oil : data.hasFlag flagLowOilP = true →
    (∃ kpa ∈ last "oil_pressure", kpa < 100) ∧ ∃ rpm ∈ last "rpm", 1000 < rpm
  fuel : data.hasFlag flagLowFuelP = true → ∃ kpa ∈ last "fuel_pressure", kpa < 200

theorem alarmsJustified_iff (lookup : String → Option ℚ) (timestampMs : UInt32) :
    AlarmsJustified (updateEngineData lookup timestampMs) lookup ↔
      (lookup "oil_pressure").isSome ∨ ∀ rpm ∈ lookup "rpm", rpm < 1001 := by
  constructor
  · rintro ⟨hoil, -⟩
    cases hkpa : lookup "oil_pressure" with
    | some kpa => exact .inl rfl
    | none =>
      refine .inr ?_
      intro rpm hrpm
      by_contra hfast
      have hlow : getValue lookup "oil_pressure" < 100 := by
        rw [getValue_of_none hkpa]
        norm_num
      have hset := (lowOilP_iff lookup timestampMs).mpr
        ⟨(getValue_of_mem hrpm).symm ▸ not_lt.mp hfast, hlow⟩
      obtain ⟨⟨kpa, hmem, -⟩, -⟩ := hoil hset
      rw [hkpa] at hmem
      cases hmem
  · intro h
    refine ⟨?_, ?_⟩
    · intro hset
      obtain ⟨hfast, hlow⟩ := (lowOilP_iff lookup timestampMs).mp hset
      have hturns : 0 < getValue lookup "rpm" := by linarith
      obtain ⟨rpm, hrpm, hvalue⟩ := exists_of_getValue_pos hturns
      have hread : (lookup "oil_pressure").isSome := by
        refine h.resolve_right ?_
        intro hslow
        have := hslow rpm hrpm
        linarith
      obtain ⟨kpa, hkpa⟩ := Option.isSome_iff_exists.mp hread
      rw [getValue_of_mem hkpa] at hlow
      exact ⟨⟨kpa, hkpa, hlow⟩, rpm, hrpm, by linarith⟩
    · intro hset
      obtain ⟨⟨-, hpositive⟩, hlow⟩ := (lowFuelP_iff lookup timestampMs).mp hset
      have hpressure : 0 < getValue lookup "fuel_pressure" := by linarith
      obtain ⟨kpa, hkpa, hvalue⟩ := exists_of_getValue_pos hpressure
      exact ⟨kpa, hkpa, by linarith⟩

/-- After a load both alarms are justified exactly if, once a frame is decoded, oil pressure has
    been read or the engine turns slowly, and before that, if they were clear at the load. -/
theorem low_pressure_iff (before : List (Op ℚ)) (table : SignalTable ℚ)
    (frames : List (CanFrame × ℕ)) :
    let last := lastReading table.stored (decodable frames)
    AlarmsJustified (run step {} (since before table frames)).engineData last ↔
      if decodable frames = [] then
        (run step {} before).engineData.hasFlag flagLowOilP = false ∧
          (run step {} before).engineData.hasFlag flagLowFuelP = false
      else (last "oil_pressure").isSome ∨ ∀ rpm ∈ last "rpm", rpm < 1001 := by
  intro last
  have hvalues : (run step ({} : CanParser ℚ) (since before table frames)).getSignalValue = last :=
    getSignalValue_since before table frames
  split_ifs with hnone
  · have hlast : ∀ name, last name = none := by
      intro name
      change lastReading table.stored (decodable frames) name = none
      rw [hnone]
      rfl
    rw [engineData_since before table frames hnone]
    constructor
    · rintro ⟨hoil, hfuel⟩
      refine ⟨?_, ?_⟩
      · by_contra hset
        obtain ⟨⟨kpa, hkpa, -⟩, -⟩ := hoil (Bool.eq_true_of_not_eq_false hset)
        rw [hlast] at hkpa
        cases hkpa
      · by_contra hset
        obtain ⟨kpa, hkpa, -⟩ := hfuel (Bool.eq_true_of_not_eq_false hset)
        rw [hlast] at hkpa
        cases hkpa
    · rintro ⟨hoil, hfuel⟩
      exact ⟨fun hset => absurd (hset.symm.trans hoil) Bool.noConfusion,
        fun hset => absurd (hset.symm.trans hfuel) Bool.noConfusion⟩
  · rw [run_engineData _ (by rwa [accepted_since]), hvalues]
    exact alarmsJustified_iff last _

def bmwRpmFrame : CanFrame := { id := 0x316, dlc := 8, data := #v[0x05, 0x0C, 0, 0x4B, 0, 0, 0, 0] }

theorem low_oil_alarm_without_reading :
    ¬ ∀ (before : List (Op ℚ)) (table : SignalTable ℚ) (frames : List (CanFrame × ℕ)),
      AlarmsJustified (run step {} (since before table frames)).engineData
        (lastReading table.stored (decodable frames)) := by
  intro hclaim
  obtain ⟨⟨kpa, hkpa, -⟩, -⟩ := (hclaim [] (.inOrder (getSignalsForProtocol "bmw"))
    [(bmwRpmFrame, 5)]).oil (by decide +kernel)
  have hnone : lastReading (getSignalsForProtocol "bmw") (decodable [(bmwRpmFrame, 5)])
      "oil_pressure" = (none : Option ℚ) := by
    decide +kernel
  change kpa ∈ lastReading (getSignalsForProtocol "bmw") _ _ at hkpa
  rw [hnone] at hkpa
  cases hkpa

end SpeeduinoDash.CanParser
