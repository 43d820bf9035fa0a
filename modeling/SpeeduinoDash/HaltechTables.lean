import SpeeduinoDash.ConfigFiles
import SpeeduinoDash.LastWriter
import SpeeduinoDash.RawValues
import SpeeduinoDash.SignalDatabase

set_option autoImplicit false

/-!
# The two Haltech tables

The configuration loader and the CAN service have a copy each of the Haltech signals.
-/
namespace SpeeduinoDash
open Lib.Keyed Lib.Runs

/-- All that the raw value depends on, and the scale. -/
def CanSignalDef.layout {R : Type} (signal : CanSignalDef R) :
    (UInt8 × UInt8 × UInt8) × Bool × Bool × R :=
  ((signal.startByte, signal.startBit, signal.lengthBits), signal.isBigEndian, signal.isSigned,
    signal.scale)

theorem signalInt_congr {R : Type} {a b : CanSignalDef R} (frame : CanFrame)
    (h : a.layout = b.layout) : signalInt frame a = signalInt frame b := by
  cases a
  cases b
  simp only [CanSignalDef.layout, Prod.mk.injEq] at h
  obtain ⟨⟨rfl, rfl, rfl⟩, rfl, rfl, rfl⟩ := h
  rfl

theorem decodeSignal_eq_iff {a b : CanSignalDef ℚ} (frame : CanFrame)
    (h : a.layout = b.layout) : decodeSignal frame a = decodeSignal frame b ↔
      a.offset = b.offset := by
  have hscale : a.scale = b.scale := congrArg (fun layout => layout.2.2.2) h
  rw [decodeSignal_eq, decodeSignal_eq, signalInt_congr frame h, hscale]
  exact add_right_inj _

/-- The pressures, of which one table takes off the atmosphere, and the temperatures, for which
    the tables have different ice points. -/
def driftedNames : List String :=
  ["fuel_pressure", "oil_pressure", "coolant_temp", "intake_temp", "fuel_temp"]

theorem haltech_rows : ∀ a ∈ (loadHaltechSignals : List (CanSignalDef ℚ)),
    ∀ b ∈ (createHaltechSignals : List (CanSignalDef ℚ)), a.name = b.name →
      a.canId = b.canId ∧ a.layout = b.layout ∧
        (a.offset = b.offset ↔ a.name ∉ driftedNames) := by
  decide +kernel

theorem haltech_names :
    ((loadHaltechSignals : List (CanSignalDef ℚ)).map CanSignalDef.name).Nodup ∧
      ((createHaltechSignals : List (CanSignalDef ℚ)).map CanSignalDef.name).Nodup := by
  constructor
  · simp [loadHaltechSignals]
  · simp [createHaltechSignals]

namespace CanParser

def parsedOnce (table : SignalTable ℚ) (frame : CanFrame) (clockMs : ℕ) : CanParser ℚ :=
  (({} : CanParser ℚ).loadSignals table).parseFrame frame clockMs

theorem getSignalValue_parsedOnce (table : SignalTable ℚ) (frame : CanFrame) (clockMs : ℕ)
    (hnames : (table.signals.map CanSignalDef.name).Nodup) {signal : CanSignalDef ℚ}
    (hmem : signal ∈ table.signals) :
    (parsedOnce table frame clockMs).getSignalValue signal.name =
      if ¬ frame.dlc > canMaxDlc ∧ frame.id = signal.canId then
        some (decodeSignal frame signal) else none := by
  have hrun := run_getSignalValue [.loadSignals table, .parseFrame frame clockMs] hnames signal.name
  have hfind := find?_of_nodup CanSignalDef.name hnames hmem
  change (parsedOnce table frame clockMs).getSignalValue signal.name = lastDecoded table.signals
    (if frame.dlc > canMaxDlc then [] else [frame]) signal.name at hrun
  rw [hrun, lastDecoded, hfind, Option.bind_some]
  by_cases hdlc : frame.dlc > canMaxDlc
  · simp [hdlc]
  · by_cases hid : frame.id = signal.canId <;> simp [hdlc, hid, lastWhere]

end CanParser

section Agreement

variable (loader service : List (CanSignalDef ℚ)) (hloader : loader.Perm loadHaltechSignals)
  (hservice : service.Perm createHaltechSignals)

/-- For a name of both tables, in whatever order the parser stores them: a frame that the parser
    accepts and that has the name's id reads the same exactly if the name has not drifted. -/
theorem haltech_tables_agree_iff (a b : CanSignalDef ℚ) (ha : a ∈ loadHaltechSignals)
    (hb : b ∈ createHaltechSignals) (hname : a.name = b.name) (frame : CanFrame) (clockMs : ℕ) :
    (CanParser.parsedOnce ⟨loadHaltechSignals, loader, hloader⟩ frame clockMs).getSignalValue
        a.name =
      (CanParser.parsedOnce ⟨createHaltechSignals, service, hservice⟩ frame clockMs).getSignalValue
        a.name ↔
      a.name ∉ driftedNames ∨ frame.dlc > canMaxDlc ∨ frame.id ≠ a.canId := by
  obtain ⟨hid, hlayout, hoffset⟩ := haltech_rows a ha b hb hname
  have hleft := CanParser.getSignalValue_parsedOnce ⟨loadHaltechSignals, loader, hloader⟩ frame
    clockMs haltech_names.1 ha
  have hright := CanParser.getSignalValue_parsedOnce ⟨createHaltechSignals, service, hservice⟩ frame
    clockMs haltech_names.2 hb
  rw [hleft, hname, hright, ← hname, ← hid]
  by_cases hread : ¬ frame.dlc > canMaxDlc ∧ frame.id = a.canId
  · rw [if_pos hread, if_pos hread, Option.some_inj, decodeSignal_eq_iff frame hlayout, hoffset]
    constructor
    · exact .inl
    · rintro (hsame | hlong | hother)
      · exact hsame
      · exact absurd hlong hread.1
      · exact absurd hread.2 hother
  · rw [if_neg hread, if_neg hread]
    refine iff_of_true rfl (.inr ?_)
    by_contra hboth
    rw [not_or, not_ne_iff] at hboth
    exact hread hboth

end Agreement

def oilFrame : CanFrame := { id := 0x361, dlc := 8, data := #v[0, 0, 0x13, 0x88, 0, 0, 0, 0] }

theorem haltech_tables_agree_iff_oil :
    (CanParser.parsedOnce (.inOrder loadHaltechSignals) oilFrame 0).getSignalValue "oil_pressure" =
      (CanParser.parsedOnce (.inOrder createHaltechSignals) oilFrame 0).getSignalValue
        "oil_pressure" ↔
      "oil_pressure" ∉ driftedNames ∨ oilFrame.dlc > canMaxDlc ∨ oilFrame.id ≠ 0x361 :=
  haltech_tables_agree_iff loadHaltechSignals createHaltechSignals (List.Perm.refl _)
    (List.Perm.refl _) ⟨"oil_pressure", 0x361, 2, 0, 16, true, false, 0.1, 0.0, "kPa"⟩
    ⟨"oil_pressure", 0x361, 2, 0, 16, true, false, 0.1, -101.3, "kPa"⟩
    (by simp [loadHaltechSignals]) (by simp [createHaltechSignals]) rfl oilFrame 0

/-- 500 kPa in one table, 398.7 kPa in the other. -/
theorem haltech_oil_pressures_differ :
    ¬ ∀ (a b : CanSignalDef ℚ), a ∈ loadHaltechSignals → b ∈ createHaltechSignals →
      a.name = b.name → ∀ (frame : CanFrame) (clockMs : ℕ),
      (CanParser.parsedOnce (.inOrder loadHaltechSignals) frame clockMs).getSignalValue a.name =
        (CanParser.parsedOnce (.inOrder createHaltechSignals) frame clockMs).getSignalValue
          a.name := by
  intro hclaim
  have hsame := hclaim ⟨"oil_pressure", 0x361, 2, 0, 16, true, false, 0.1, 0.0, "kPa"⟩
    ⟨"oil_pressure", 0x361, 2, 0, 16, true, false, 0.1, -101.3, "kPa"⟩
    (by simp [loadHaltechSignals]) (by simp [createHaltechSignals]) rfl oilFrame 0
  exact absurd hsame (by decide +kernel)

end SpeeduinoDash
