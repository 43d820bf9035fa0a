import Mathlib.Data.List.Induction
import Mathlib.Tactic.Linarith
import SpeeduinoDash.Lib.Runs
import SpeeduinoDash.WidebandForwarder

set_option autoImplicit false

/-!
# What a wideband frame reads

The lambda is clamped before it is scaled, so that every field of it fits. The heater status is not,
and two of the formats have it in a percentage.
-/
namespace SpeeduinoDash.WidebandForwarder
open Lib.ByteOrder Lib.Rounding Lib.Runs

def after (ops : List Op) : WidebandForwarder := run step {} ops

def Op.lambda? : Op → Option ℚ
  | .setLambda lambda => some lambda
  | .setAFR afr => some (afr / Wideband.stoichAfr)
  | _ => none

def Op.heaterStatus? : Op → Option UInt8
  | .setHeaterStatus status => some status
  | _ => none

def Op.format? : Op → Option WidebandFormat
  | .setFormat format => some format
  | _ => none

def last {α : Type} (initial : α) (asks : Op → Option α) (ops : List Op) : α :=
  (ops.filterMap asks).getLastD initial

/-- A field in steps of `1 / scale` reads a value at most one step below. -/
structure Truncates (scale value : ℚ) (raw : ℕ) : Prop where
  le : raw / scale ≤ value
  lt : value < (raw + 1) / scale

def FieldsDecode (lambda : ℚ) (frame : CanFrame) : WidebandFormat → Prop
  | .aemXSeries => Truncates 10000 lambda (bigWord frame.byteAt 0)
  | .innovateLC2 =>
    Truncates 10 (lambda * Wideband.stoichAfr) (bigWord frame.byteAt 0) ∧
      Truncates 1000 lambda (bigWord frame.byteAt 2)
  | .plxSmAfr => Truncates 100 (lambda * Wideband.stoichAfr) (littleWord frame.byteAt 0)
  | .spartan14Point7 => Truncates 1000 lambda (bigWord frame.byteAt 0)

/-- The byte that is a percentage: the warmup of Innovate, the heater duty of Spartan. -/
def percentage (frame : CanFrame) : WidebandFormat → Option UInt8
  | .innovateLC2 => some (frame.byteAt 4)
  | .spartan14Point7 => some (frame.byteAt 5)
  | _ => none

structure Encoded (ops : List Op) : Prop where
  fields :
    FieldsDecode (saturate Wideband.lambdaMin Wideband.lambdaMax (last 1 Op.lambda? ops))
      (after ops).buildFrame (last .aemXSeries Op.format? ops)
  percentage :
    ∀ p, percentage (after ops).buildFrame (last .aemXSeries Op.format? ops) = some p → p ≤ 100

/-- The heater status is a percentage where the format has it in one. -/
def HeaterFits (ops : List Op) : Prop :=
  last .aemXSeries Op.format? ops = .innovateLC2 ∨
      last .aemXSeries Op.format? ops = .spartan14Point7 →
    last 0 Op.heaterStatus? ops ≤ 100

theorem last_snoc {α : Type} (initial : α) (asks : Op → Option α) (ops : List Op) (op : Op) :
    last initial asks (ops ++ [op]) = (asks op).getD (last initial asks ops) := by
  unfold last
  rw [List.filterMap_append]
  cases hasks : asks op with
  | none => simp [hasks]
  | some a => simp [hasks]

theorem after_keeps {α β : Type} (get : WidebandForwarder → β) (stored : α → β) {initial : α}
    {asks : Op → Option α} (hinitial : get {} = stored initial)
    (hstep : ∀ f op, get (step f op) = ((asks op).map stored).getD (get f)) (ops : List Op) :
    get (after ops) = stored (last initial asks ops) := by
  induction ops using List.reverseRecOn with
  | nil => exact hinitial
  | append_singleton ops op ih =>
    rw [last_snoc, after, run_snoc, hstep, ← after, ih]
    cases asks op <;> rfl

theorem sendNow_frame (f : WidebandForwarder) (accepts : CanFrame → Bool) :
    (f.sendNow accepts).1.format = f.format ∧ (f.sendNow accepts).1.lambda = f.lambda ∧
      (f.sendNow accepts).1.heaterStatus = f.heaterStatus := by
  unfold sendNow
  split_ifs <;> exact ⟨rfl, rfl, rfl⟩

theorem after_format (ops : List Op) : (after ops).format = last .aemXSeries Op.format? ops := by
  refine after_keeps WidebandForwarder.format id rfl (fun f op => ?_) ops
  cases op with
  | sendNow accepts => exact (sendNow_frame f accepts).1
  | _ => rfl

theorem after_heaterStatus (ops : List Op) :
    (after ops).heaterStatus = last 0 Op.heaterStatus? ops := by
  refine after_keeps WidebandForwarder.heaterStatus id rfl (fun f op => ?_) ops
  cases op with
  | sendNow accepts => exact (sendNow_frame f accepts).2.2
  | _ => rfl

theorem lambdaMin_le_lambdaMax : Wideband.lambdaMin ≤ Wideband.lambdaMax := by
  norm_num [Wideband.lambdaMin, Wideband.lambdaMax]

theorem clampLambda_eq (lambda : ℚ) :
    clampLambda lambda = saturate Wideband.lambdaMin Wideband.lambdaMax lambda := by
  have hrange := lambdaMin_le_lambdaMax
  unfold clampLambda saturate
  split_ifs with hbelow habove
  · rw [min_eq_right (hbelow.le.trans hrange), max_eq_left hbelow.le]
  · rw [min_eq_left habove.le, max_eq_right hrange]
  · rw [min_eq_right (not_lt.mp habove), max_eq_right (not_lt.mp hbelow)]

theorem clampLambda_mem (lambda : ℚ) :
    Wideband.lambdaMin ≤ clampLambda lambda ∧ clampLambda lambda ≤ Wideband.lambdaMax := by
  rw [clampLambda_eq]
  exact ⟨le_max_left _ _, max_le lambdaMin_le_lambdaMax (min_le_left _ _)⟩

theorem after_lambda (ops : List Op) :
    (after ops).lambda = clampLambda (last 1 Op.lambda? ops) := by
  have hinitial : 1 = clampLambda 1 := by
    norm_num [clampLambda, Wideband.lambdaMin, Wideband.lambdaMax]
  refine after_keeps WidebandForwarder.lambda clampLambda hinitial (fun f op => ?_) ops
  cases op with
  | sendNow accepts => exact (sendNow_frame f accepts).2.1
  | _ => rfl

theorem castUInt16_toNat {x : ℚ} (hpos : 0 ≤ x) (hlt : x < 65536) :
    ((castUInt16 x).toNat : ℤ) = ⌊x⌋ := by
  have hfloor : 0 ≤ ⌊x⌋ := Int.floor_nonneg.mpr hpos
  have hsmall : ⌊x⌋ < 65536 := Int.floor_lt.mpr (by exact_mod_cast hlt)
  rw [castUInt16, towardZero_of_nonneg hpos, UInt16.toNat_ofNat_of_lt' (by
    change _ < 65536
    omega), Int.toNat_of_nonneg hfloor]

theorem truncates_cast {scale value : ℚ} (hscale : 0 < scale) (hpos : 0 ≤ value * scale)
    (hlt : value * scale < 65536) : Truncates scale value (castUInt16 (value * scale)).toNat := by
  have hraw : ((castUInt16 (value * scale)).toNat : ℚ) = ⌊value * scale⌋ := by
    exact_mod_cast castUInt16_toNat hpos hlt
  constructor
  · rw [div_le_iff₀ hscale, hraw]
    exact Int.floor_le _
  · rw [lt_div_iff₀ hscale, hraw]
    exact Int.lt_floor_add_one _

/-- Every field has room for the clamped lambda. -/
theorem fieldsDecode (f : WidebandForwarder) (hmin : Wideband.lambdaMin ≤ f.lambda)
    (hmax : f.lambda ≤ Wideband.lambdaMax) : FieldsDecode f.lambda f.buildFrame f.format := by
  unfold Wideband.lambdaMin at hmin
  unfold Wideband.lambdaMax at hmax
  unfold buildFrame
  cases f.format with
  | aemXSeries =>
    have hword : bigWord f.buildAEMFrame.byteAt 0 = (castUInt16 (f.lambda * 10000)).toNat :=
      bigWord_of_halves rfl rfl
    dsimp only [FieldsDecode]
    rw [hword]
    exact truncates_cast (by norm_num) (by linarith) (by linarith)
  | innovateLC2 =>
    have hafr : bigWord f.buildInnovateFrame.byteAt 0 = (castUInt16 (f.afr * 10)).toNat :=
      bigWord_of_halves rfl rfl
    have hlambda : bigWord f.buildInnovateFrame.byteAt 2 = (castUInt16 (f.lambda * 1000)).toNat :=
      bigWord_of_halves rfl rfl
    dsimp only [FieldsDecode]
    rw [hafr, hlambda]
    unfold afr Wideband.stoichAfr
    exact ⟨truncates_cast (by norm_num) (by linarith) (by linarith),
      truncates_cast (by norm_num) (by linarith) (by linarith)⟩
  | plxSmAfr =>
    have hafr : littleWord f.buildPLXFrame.byteAt 0 = (castUInt16 (f.afr * 100)).toNat :=
      littleWord_of_halves rfl rfl
    dsimp only [FieldsDecode]
    rw [hafr]
    unfold afr Wideband.stoichAfr
    exact truncates_cast (by norm_num) (by linarith) (by linarith)
  | spartan14Point7 =>
    have hlambda : bigWord f.buildSpartanFrame.byteAt 0 = (castUInt16 (f.lambda * 1000)).toNat :=
      bigWord_of_halves rfl rfl
    dsimp only [FieldsDecode]
    rw [hlambda]
    exact truncates_cast (by norm_num) (by linarith) (by linarith)

theorem hundred_sub_le_iff (status : UInt8) : 100 - status ≤ 100 ↔ status ≤ 100 := by
  rw [UInt8.le_iff_toNat_le, UInt8.le_iff_toNat_le, UInt8.toNat_sub]
  have hlt := status.toNat_lt
  change (2 ^ 8 - status.toNat + 100) % 2 ^ 8 ≤ 100 ↔ status.toNat ≤ 100
  omega

theorem percentage_le_iff (f : WidebandForwarder) :
    (∀ p, percentage f.buildFrame f.format = some p → p ≤ 100) ↔
      (f.format = .innovateLC2 ∨ f.format = .spartan14Point7 → f.heaterStatus ≤ 100) := by
  unfold buildFrame
  cases f.format with
  | innovateLC2 =>
    have hwarmup : f.buildInnovateFrame.byteAt 4 = 100 - f.heaterStatus := rfl
    simp [percentage, hwarmup, hundred_sub_le_iff]
  | spartan14Point7 =>
    have hduty : f.buildSpartanFrame.byteAt 5 = f.heaterStatus := rfl
    simp [percentage, hduty]
  | _ => simp [percentage]

theorem encoded_iff (ops : List Op) : Encoded ops ↔ HeaterFits ops := by
  obtain ⟨hmin, hmax⟩ := clampLambda_mem (last 1 Op.lambda? ops)
  rw [← after_lambda] at hmin hmax
  have hfields := (after ops).fieldsDecode hmin hmax
  have hpercentage := percentage_le_iff (after ops)
  rw [after_lambda, clampLambda_eq, after_format] at hfields
  rw [after_format, after_heaterStatus] at hpercentage
  constructor
  · intro h
    exact hpercentage.mp h.percentage
  · intro h
    exact ⟨hfields, hpercentage.mpr h⟩

/-- A status of 101 leaves a warmup of 255 percent. -/
theorem warmup_wraps : ¬ ∀ ops, Encoded ops := by
  intro h
  have hp := (h [.setFormat .innovateLC2, .setHeaterStatus 101]).percentage 255 rfl
  revert hp
  decide

end SpeeduinoDash.WidebandForwarder
