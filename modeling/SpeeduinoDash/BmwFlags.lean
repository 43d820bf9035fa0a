import SpeeduinoDash.Clamping
import SpeeduinoDash.RawValues
import SpeeduinoDash.SignalDatabase
import SpeeduinoDash.SinceLoad

set_option autoImplicit false

/-!
# The status flags of the BMW table

Of the status bits of the table only the one of the cruise control has a name that the summary of
the engine data looks up. With exact rationals.
-/
namespace SpeeduinoDash.CanParser
open EngineData Lib.Keyed Lib.Rounding Lib.Runs

/-- Byte `i` of the last frame with the id, 0 without one. -/
def lastByte (frames : List CanFrame) (id : UInt32) (i : ℕ) : ℕ :=
  ((lastWhere (fun frame => frame.id == id) frames).map (fun frame => payloadByte frame i)).getD 0

def lastBit (frames : List CanFrame) (id : UInt32) (i bit : ℕ) : Bool :=
  (lastByte frames id i).testBit bit

structure FlagsFollow (data : EngineData) (frames : List CanFrame) : Prop where
  cel : data.hasFlag flagCelOn = lastBit frames 0x545 0 1
  cruise : data.hasFlag flagCruiseOn = lastBit frames 0x545 0 4
  brake : data.hasFlag flagBrakeOn = lastBit frames 0x329 6 0
  overheat : lastBit frames 0x545 3 3 = true → data.hasFlag flagOverheat = true

theorem active_of_none {lookup : String → Option ℚ} {name : String} (h : lookup name = none) :
    active (getValue lookup name) = false := by
  rw [getValue_of_none h, active, decide_eq_false_iff_not]
  norm_num

section Decoding

structure WithinByte (signal : CanSignalDef ℚ) : Prop where
  pos : 0 < signal.lengthBits.toNat
  len : signal.lengthBits.toNat ≤ 8
  bit : signal.startBit.toNat < 8
  byte : signal.startByte.toNat < 255
  unsigned : signal.isSigned = false

variable {signals : List (CanSignalDef ℚ)} {signal : CanSignalDef ℚ} {name : String}
  (frames : List CanFrame)

theorem lastDecoded_of_absent (h : signals.find? (fun s => s.name == name) = none) :
    lastDecoded signals frames name = none := by
  rw [lastDecoded, h]
  rfl

theorem decodeSignal_byte (h : WithinByte signal) (frame : CanFrame) : decodeSignal frame signal =
    ((payloadByte frame signal.startByte.toNat / 2 ^ signal.startBit.toNat %
      2 ^ signal.lengthBits.toNat : ℕ) : ℚ) * signal.scale + signal.offset := by
  rw [decodeSignal, applyScaling, ← extractRawValue_byte frame signal h.pos h.len h.bit h.byte,
    h.unsigned]
  rfl

theorem getValue_byte (h : WithinByte signal)
    (hfind : signals.find? (fun s => s.name == name) = some signal) :
    getValue (lastDecoded signals frames) name =
      if lastWhere (fun frame => frame.id == signal.canId) frames = none then 0
      else ((lastByte frames signal.canId signal.startByte.toNat / 2 ^ signal.startBit.toNat %
        2 ^ signal.lengthBits.toNat : ℕ) : ℚ) * signal.scale + signal.offset := by
  have hlast : lastDecoded signals frames name =
      (lastWhere (fun frame => frame.id == signal.canId) frames).map
        (fun frame => decodeSignal frame signal) := by
    rw [lastDecoded, hfind]
    rfl
  rw [lastByte]
  cases hframe : lastWhere (fun frame => frame.id == signal.canId) frames with
  | none =>
    rw [hframe] at hlast
    rw [getValue_of_none hlast, if_pos rfl]
  | some frame =>
    rw [hframe, Option.map_some] at hlast
    rw [getValue_of_mem hlast, decodeSignal_byte h frame, if_neg (Option.some_ne_none frame)]
    rfl

theorem lastByte_of_none {frames : List CanFrame} {id : UInt32}
    (h : lastWhere (fun frame => frame.id == id) frames = none) (i : ℕ) :
    lastByte frames id i = 0 := by
  rw [lastByte, h]
  rfl

end Decoding

section Bmw

variable (frames : List CanFrame)

theorem cruise_active : active (getValue (lastDecoded (getSignalsForProtocol "bmw") frames)
    "cruise_active" : ℚ) = lastBit frames 0x545 0 4 := by
  let signal : CanSignalDef ℚ := ⟨"cruise_active", 0x545, 0, 4, 1, false, false, 1.0, 0.0, ""⟩
  have hsignal : WithinByte signal := by constructor <;> decide
  have hfind : (getSignalsForProtocol "bmw").find? (fun s => s.name == "cruise_active") =
      some signal := rfl
  have hvalue := getValue_byte frames hsignal hfind
  change getValue _ "cruise_active" = if lastWhere (fun frame => frame.id == 0x545) frames = none
    then 0 else ((lastByte frames 0x545 0 / 2 ^ 4 % 2 ^ 1 : ℕ) : ℚ) * 1.0 + 0.0 at hvalue
  rw [hvalue, active, lastBit, Nat.testBit_eq_decide_div_mod_eq, decide_eq_decide]
  split_ifs with hnone
  · rw [lastByte_of_none hnone]
    norm_num
  · rw [pow_one]
    obtain hbit | hbit := Nat.mod_two_eq_zero_or_one (lastByte frames 0x545 0 / 2 ^ 4)
    · rw [hbit]
      norm_num
    · rw [hbit]
      norm_num

theorem lastByte_lt (id : UInt32) (i : ℕ) : lastByte frames id i < 256 := by
  rw [lastByte]
  cases lastWhere (fun frame => frame.id == id) frames with
  | none => exact Nat.zero_lt_succ 255
  | some frame =>
    change payloadByte frame i < 256
    rw [payloadByte]
    split_ifs
    · exact (frame.byteAt i).toNat_lt
    · decide

theorem coolant_overheats_iff : coolantOverheatThresholdC < clampI8 (getValue
    (lastDecoded (getSignalsForProtocol "bmw") frames) "coolant_temp" : ℚ) ↔
      206 ≤ lastByte frames 0x329 1 := by
  let signal : CanSignalDef ℚ := ⟨"coolant_temp", 0x329, 1, 0, 8, false, false, 0.75, -48.0, "C"⟩
  have hsignal : WithinByte signal := by constructor <;> decide
  have hfind : (getSignalsForProtocol "bmw").find? (fun s => s.name == "coolant_temp") =
      some signal := rfl
  have hvalue := getValue_byte frames hsignal hfind
  change getValue _ "coolant_temp" = if lastWhere (fun frame => frame.id == 0x329) frames = none
    then 0 else ((lastByte frames 0x329 1 / 2 ^ 0 % 2 ^ 8 : ℕ) : ℚ) * 0.75 + -48.0 at hvalue
  have hbyte : lastByte frames 0x329 1 / 2 ^ 0 % 2 ^ 8 = lastByte frames 0x329 1 := by
    have hlt := lastByte_lt frames 0x329 1
    omega
  have hclamp := le_clampI8_iff (n := 106) (by decide) (by decide)
    (getValue (lastDecoded (getSignalsForProtocol "bmw") frames) "coolant_temp")
  refine Iff.trans (Int8.lt_iff_toInt_lt.trans ?_) (hclamp.trans ?_)
  · exact Iff.rfl
  · rw [hvalue, hbyte]
    split_ifs with hnone
    · rw [lastByte_of_none hnone]
      norm_num
    · generalize lastByte frames 0x329 1 = byte
      constructor
      · intro hhot
        by_contra hlow
        have hbyte : (byte : ℚ) ≤ 205 := by exact_mod_cast Nat.lt_succ_iff.mp (not_le.mp hlow)
        norm_num at hhot
        linarith
      · intro hhigh
        have hbyte : (206 : ℚ) ≤ byte := by exact_mod_cast hhigh
        norm_num
        linarith

theorem bmw_flags (timestampMs : UInt32) :
    let data := updateEngineData (lastDecoded (getSignalsForProtocol "bmw" : List (CanSignalDef ℚ))
      frames) timestampMs
    data.hasFlag flagCelOn = false ∧ data.hasFlag flagBrakeOn = false ∧
      data.hasFlag flagCruiseOn = lastBit frames 0x545 0 4 ∧
      (data.hasFlag flagOverheat = true ↔ 206 ≤ lastByte frames 0x329 1) := by
  intro data
  let lookup := lastDecoded (getSignalsForProtocol "bmw" : List (CanSignalDef ℚ)) frames
  have habsent : ∀ name, (getSignalsForProtocol "bmw" : List (CanSignalDef ℚ)).find?
      (fun s => s.name == name) = none → active (getValue lookup name) = false :=
    fun name hfind => active_of_none (lastDecoded_of_absent frames hfind)
  have hcel := statusFlags_celOn lookup (measurements lookup timestampMs)
  have hbrake := statusFlags_brakeOn lookup (measurements lookup timestampMs)
  have hcruise := statusFlags_cruiseOn lookup (measurements lookup timestampMs)
  have hoverheat := statusFlags_overheat lookup (measurements lookup timestampMs)
  rw [habsent "cel_flag" rfl, habsent "check_engine" rfl] at hcel
  rw [habsent "brake_flag" rfl, habsent "brake_switch" rfl] at hbrake
  rw [habsent "cruise_flag" rfl, cruise_active] at hcruise
  rw [habsent "overheat_flag" rfl] at hoverheat
  refine ⟨?_, ?_, ?_, ?_⟩
  · rw [← Bool.not_eq_true, hasFlag_iff]
    exact fun hset => by simpa using hcel.mp hset
  · rw [← Bool.not_eq_true, hasFlag_iff]
    exact fun hset => by simpa using hbrake.mp hset
  · rw [Bool.eq_iff_iff, hasFlag_iff]
    exact hcruise.trans (by simp)
  · rw [hasFlag_iff, ← coolant_overheats_iff]
    exact hoverheat.trans (by simp [measurements, lookup])

theorem getSignalValue_bmw (table : SignalTable ℚ) (frames : List (CanFrame × ℕ))
    (hbmw : table.signals = getSignalsForProtocol "bmw") :
    (run step ({} : CanParser ℚ) (since [] table frames)).getSignalValue =
      lastDecoded (getSignalsForProtocol "bmw") (decodable frames) := by
  have hperm := table.perm
  rw [hbmw] at hperm
  rw [getSignalValue_since]
  funext name
  exact lastReading_eq_lastDecoded hperm (getSignalsForProtocol_names "bmw") _ name

/-- With the BMW table the flags follow their bits exactly while the bits of the check engine
    light and the brake are clear and the overheat bit comes with a coolant above the threshold. -/
theorem bmw_flags_iff (table : SignalTable ℚ) (frames : List (CanFrame × ℕ))
    (hbmw : table.signals = getSignalsForProtocol "bmw") :
    FlagsFollow (run step {} (since [] table frames)).engineData (decodable frames) ↔
      lastBit (decodable frames) 0x545 0 1 = false ∧ lastBit (decodable frames) 0x329 6 0 = false ∧
        (lastBit (decodable frames) 0x545 3 3 = true → 206 ≤ lastByte (decodable frames) 0x329 1) := by
  by_cases hnone : decodable frames = []
  · have hbit : ∀ id i bit, lastBit ([] : List CanFrame) id i bit = false :=
      fun id i bit => Nat.zero_testBit bit
    have hnew : (run step ({} : CanParser ℚ) []).engineData = {} := rfl
    rw [engineData_since [] table frames hnone, hnew, hnone]
    refine iff_of_true ⟨?_, ?_, ?_, ?_⟩ ⟨hbit _ _ _, hbit _ _ _, ?_⟩
    · rw [hbit]
      rfl
    · rw [hbit]
      rfl
    · rw [hbit]
      rfl
    · rw [hbit]
      exact fun hset => absurd hset Bool.false_ne_true
    · rw [hbit]
      exact fun hset => absurd hset Bool.false_ne_true
  · rw [run_engineData _ (by rwa [accepted_since]), getSignalValue_bmw table frames hbmw]
    obtain ⟨hcel, hbrake, hcruise, hoverheat⟩ := bmw_flags (decodable frames)
      (run step ({} : CanParser ℚ) (since [] table frames)).lastUpdateTimestamp
    constructor
    · intro h
      exact ⟨h.cel.symm.trans hcel, h.brake.symm.trans hbrake,
        fun hset => hoverheat.mp (h.overheat hset)⟩
    · rintro ⟨hcelBit, hbrakeBit, hhot⟩
      exact ⟨hcel.trans hcelBit.symm, hcruise, hbrake.trans hbrakeBit.symm,
        fun hset => hoverheat.mpr (hhot hset)⟩

def cruiseFrame : CanFrame := { id := 0x545, dlc := 8, data := #v[0x10, 0, 0, 0, 0, 0, 0, 0] }

theorem bmw_flags_iff_cruise :
    (run step ({} : CanParser ℚ) (since [] (.inOrder (getSignalsForProtocol "bmw"))
      [(cruiseFrame, 7)])).engineData.hasFlag flagCruiseOn = true :=
  ((bmw_flags_iff (.inOrder (getSignalsForProtocol "bmw")) [(cruiseFrame, 7)] rfl).mpr
    (by decide)).cruise.trans (by decide)

def celFrame : CanFrame := { id := 0x545, dlc := 8, data := #v[0x02, 0, 0, 0, 0, 0, 0, 0] }

theorem cel_bit_lost :
    ¬ ∀ (table : SignalTable ℚ) (frames : List (CanFrame × ℕ)),
      table.signals = getSignalsForProtocol "bmw" →
      FlagsFollow (run step {} (since [] table frames)).engineData (decodable frames) := by
  intro hclaim
  have hcel := (hclaim (.inOrder (getSignalsForProtocol "bmw")) [(celFrame, 7)] rfl).cel
  exact absurd hcel (by decide +kernel)

end Bmw

end SpeeduinoDash.CanParser
