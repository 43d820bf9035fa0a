import SpeeduinoDash.Clamping
import SpeeduinoDash.TruncatedFrames

set_option autoImplicit false

/-!
# The overheat flag

The coolant temperature is cut to whole degrees before it is compared. With exact rationals.
-/
namespace SpeeduinoDash.CanParser
open EngineData

section Conversion

variable (lookup : String → Option ℚ)

theorem active_getValue_iff (name : String) :
    active (getValue lookup name) = true ↔ ∃ value ∈ lookup name, 1 / 2 < value := by
  have hhalf : (0.5 : ℚ) = 1 / 2 := by norm_num
  unfold active
  rw [decide_eq_true_eq, hhalf]
  constructor
  · intro h
    obtain ⟨value, hmem, hvalue⟩ := exists_of_getValue_pos (lt_trans (by norm_num) h)
    rw [hvalue] at h
    exact ⟨value, hmem, h⟩
  · rintro ⟨value, hmem, h⟩
    rw [getValue_of_mem hmem]
    exact h

theorem overheat_iff (timestampMs : UInt32) :
    (updateEngineData lookup timestampMs).hasFlag flagOverheat = true ↔
      106 ≤ getValue lookup "coolant_temp" ∨
        ∃ value ∈ lookup "overheat_flag", 1 / 2 < value := by
  have hcoolant := le_clampI8_iff (n := 106) (by decide) (by decide) (getValue lookup "coolant_temp")
  have hflag := statusFlags_overheat lookup (measurements lookup timestampMs)
  have hthreshold : coolantOverheatThresholdC < (measurements lookup timestampMs).coolantTemp ↔
      (106 : ℤ) ≤ (clampI8 (getValue lookup "coolant_temp")).toInt := by
    rw [Int8.lt_iff_toInt_lt]
    exact Int.add_one_le_iff.symm
  rw [hthreshold, hcoolant, active_getValue_iff] at hflag
  rw [hasFlag_iff]
  exact hflag.trans Iff.rfl

end Conversion

/-- The overheat flag after a frame: what the frame says, or else what was said before. -/
def OverheatSignalled (p : CanParser ℚ) (frame : CanFrame) : Prop :=
  ∃ value ∈ (reading p.signalsByCanId "overheat_flag" frame).or (p.getSignalValue "overheat_flag"),
    1 / 2 < value

/-- The flag says that the coolant is above the threshold, or that the ECU says so. -/
def OverheatExact (p : CanParser ℚ) (frame : CanFrame) (clockMs : ℕ) (signal : CanSignalDef ℚ) :
    Prop :=
  (p.parseFrame frame clockMs).engineData.hasFlag flagOverheat = true ↔
    105 < arrivedReading frame signal ∨ OverheatSignalled p frame

/-- The flag is exact but for temperatures between the threshold and the next degree. -/
theorem overheatExact_iff (p : CanParser ℚ) (frame : CanFrame) (clockMs : ℕ)
    (signal : CanSignalDef ℚ) (hdlc : ¬ frame.dlc > canMaxDlc)
    (hsignal : p.inForce frame.id "coolant_temp" = some signal) :
    OverheatExact p frame clockMs signal ↔
      arrivedReading frame signal ≤ 105 ∨ 106 ≤ arrivedReading frame signal ∨
        OverheatSignalled p frame := by
  have hreading : reading p.signalsByCanId "coolant_temp" frame =
      (p.inForce frame.id "coolant_temp").map (decodeSignal frame) := rfl
  have hcoolant : getValue (p.parseFrame frame clockMs).getSignalValue "coolant_temp" =
      arrivedReading frame signal := by
    apply getValue_of_mem
    rw [getSignalValue_parseFrame p clockMs hdlc, hreading, hsignal, Option.map_some,
      Option.some_or, decodeSignal_eq]
    rfl
  have hflag := overheat_iff (p.parseFrame frame clockMs).getSignalValue (getMonotonicMs clockMs)
  rw [hcoolant, getSignalValue_parseFrame p clockMs hdlc "overheat_flag"] at hflag
  unfold OverheatExact
  rw [engineData_parseFrame p clockMs hdlc, hflag]
  change (106 ≤ _ ∨ OverheatSignalled p frame ↔ _ ∨ OverheatSignalled p frame) ↔ _
  by_cases hsignalled : OverheatSignalled p frame
  · simp [hsignalled]
  · simp only [hsignalled, or_false]
    constructor
    · intro h
      rcases le_or_gt (arrivedReading frame signal) 105 with hcool | hhot
      · exact .inl hcool
      · exact .inr (h.mpr hhot)
    · rintro (hcool | hhot)
      · constructor <;> intro <;> linarith
      · constructor <;> intro <;> linarith

/-- A tenth of a degree for each step. -/
def coolantTenths : CanSignalDef ℚ where
  name := "coolant_temp"
  canId := 0x3E0
  startByte := 0
  startBit := 0
  lengthBits := 16
  isBigEndian := true
  isSigned := false
  scale := 1 / 10
  offset := 0

/-- 105.9 degrees. -/
def hotFrame : CanFrame := { id := 0x3E0, dlc := 8, data := #v[0x04, 0x23, 0, 0, 0, 0, 0, 0] }

def coolantParser : CanParser ℚ := ({} : CanParser ℚ).loadSignals (.inOrder [coolantTenths])

theorem overheatExact_iff_hot : OverheatExact coolantParser hotFrame 0 coolantTenths ↔
    arrivedReading hotFrame coolantTenths ≤ 105 ∨ 106 ≤ arrivedReading hotFrame coolantTenths ∨
      OverheatSignalled coolantParser hotFrame :=
  overheatExact_iff coolantParser hotFrame 0 coolantTenths (by decide) rfl

theorem hot_coolant_not_flagged :
    ¬ ∀ (p : CanParser ℚ) (frame : CanFrame) (clockMs : ℕ) (signal : CanSignalDef ℚ),
      ¬ frame.dlc > canMaxDlc → p.inForce frame.id "coolant_temp" = some signal →
        OverheatExact p frame clockMs signal := by
  intro hclaim
  have hexact := hclaim coolantParser hotFrame 0 coolantTenths (by decide) rfl
  have hset := hexact.mpr (.inl (by decide +kernel))
  exact absurd hset (by decide +kernel)

end SpeeduinoDash.CanParser
