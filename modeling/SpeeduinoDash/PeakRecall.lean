import Mathlib.Data.Rat.Floor
import Mathlib.Logic.Function.Basic
import Mathlib.Tactic.SplitIfs
import SpeeduinoDash.Lib.Runs
import SpeeduinoDash.Lib.WrapClock

set_option autoImplicit false

/-!
# Peaks and minima

The inputs and their extremes are kept by name. The trace keeps the values that each input had while
tracking since the last reset, with the value at the reset and at each resumption.
-/
namespace SpeeduinoDash
open Lib.Runs Lib.WrapClock

inductive PeakInput where
  | rpm
  | speed
  | coolantTemp
  | oilTemp
  | oilPressure
  | boostPsi
  | afr
  | iat
  | batteryVoltage
  | egt
deriving DecidableEq

inductive Extreme where
  | peakRpm
  | peakSpeed
  | peakCoolantTemp
  | peakOilTemp
  | peakBoostPsi
  | peakIat
  | peakEgt
  | minOilPressure
  | minAfr
  | maxAfr
  | minBatteryVoltage
deriving DecidableEq

namespace Extreme

def input : Extreme → PeakInput
  | .peakRpm => .rpm
  | .peakSpeed => .speed
  | .peakCoolantTemp => .coolantTemp
  | .peakOilTemp => .oilTemp
  | .peakBoostPsi => .boostPsi
  | .peakIat => .iat
  | .peakEgt => .egt
  | .minOilPressure => .oilPressure
  | .minAfr => .afr
  | .maxAfr => .afr
  | .minBatteryVoltage => .batteryVoltage

def isMin : Extreme → Bool
  | .minOilPressure => true
  | .minAfr => true
  | .minBatteryVoltage => true
  | _ => false

end Extreme

structure PeakRecall where
  values : PeakInput → ℚ := fun
    | .afr => 14.7
    | .batteryVoltage => 12
    | _ => 0
  extremes : Extreme → ℚ := fun
    | .minOilPressure => 999
    | .minAfr => 20
    | .maxAfr => 10
    | .minBatteryVoltage => 15
    | _ => 0
  sessionStartTime : ℤ := 0
  isTracking : Bool := true
  sessionDuration : ℤ := 0

namespace PeakRecall

section Handlers

variable (s : PeakRecall) (e : Extreme)

def take : PeakRecall :=
  { s with extremes := Function.update s.extremes e (s.values e.input) }

def raise : PeakRecall := if s.extremes e < s.values e.input then s.take e else s

def lower : PeakRecall := if s.values e.input < s.extremes e then s.take e else s

def onPeakChanged : PeakRecall := if s.isTracking then s.raise e else s

def onMinChanged : PeakRecall :=
  if s.isTracking ∧ 0 < s.values e.input then s.lower e else s

def onAfrChanged : PeakRecall :=
  if s.isTracking ∧ 0 < s.values .afr then (s.lower .minAfr).raise .maxAfr else s

def onChanged : PeakInput → PeakRecall
  | .rpm => s.onPeakChanged .peakRpm
  | .speed => s.onPeakChanged .peakSpeed
  | .coolantTemp => s.onPeakChanged .peakCoolantTemp
  | .oilTemp => s.onPeakChanged .peakOilTemp
  | .boostPsi => s.onPeakChanged .peakBoostPsi
  | .iat => s.onPeakChanged .peakIat
  | .egt => s.onPeakChanged .peakEgt
  | .oilPressure => s.onMinChanged .minOilPressure
  | .afr => s.onAfrChanged
  | .batteryVoltage => s.onMinChanged .minBatteryVoltage

def resetPeaks (now : ℤ) : PeakRecall :=
  { s with
    extremes := fun
      | .peakRpm => 0
      | .peakSpeed => 0
      | .peakCoolantTemp => s.values .coolantTemp
      | .peakOilTemp => s.values .oilTemp
      | .peakBoostPsi => s.values .boostPsi
      | .peakIat => s.values .iat
      | .peakEgt => s.values .egt
      | .minOilPressure => if 0 < s.values .oilPressure then s.values .oilPressure else 999
      | .minAfr => if 0 < s.values .afr then s.values .afr else 20
      | .maxAfr => if 0 < s.values .afr then s.values .afr else 10
      | .minBatteryVoltage =>
        if 0 < s.values .batteryVoltage then s.values .batteryVoltage else 15
    sessionStartTime := toInt32 now
    sessionDuration := 0 }

def toggleTracking : PeakRecall := { s with isTracking := !s.isTracking }

def assign (input : PeakInput) (value : ℚ) : PeakRecall :=
  { s with values := Function.update s.values input value }

end Handlers

inductive Op where
  | change (input : PeakInput) (value : ℚ)
  | resetPeaks (now : ℤ)
  | toggleTracking
  /-- The timer of the session. -/
  | tick (now : ℤ)

def step (s : PeakRecall) : Op → PeakRecall
  | .change input value =>
    if value = s.values input then s else (s.assign input value).onChanged input
  | .resetPeaks now => s.resetPeaks now
  | .toggleTracking => s.toggleTracking
  | .tick now =>
    { s with
      sessionDuration :=
        if s.isTracking then toInt32 ((now - s.sessionStartTime) / 1000) else s.sessionDuration }

def Bounds (s : PeakRecall) (e : Extreme) (value : ℚ) : Prop :=
  if e.isMin then 0 < value → s.extremes e ≤ value else value ≤ s.extremes e

instance (s : PeakRecall) (e : Extreme) (value : ℚ) : Decidable (s.Bounds e value) :=
  inferInstanceAs (Decidable (if e.isMin then 0 < value → s.extremes e ≤ value
    else value ≤ s.extremes e))

section Extremes

variable {s s' : PeakRecall} {e e' : Extreme} {value : ℚ}

theorem bounds_max (h : e.isMin = false) : s.Bounds e value ↔ value ≤ s.extremes e := by
  unfold Bounds
  rw [h]
  exact Iff.rfl

theorem bounds_min (h : e.isMin = true) :
    s.Bounds e value ↔ (0 < value → s.extremes e ≤ value) := by
  unfold Bounds
  rw [h]
  exact Iff.rfl

theorem Bounds.of_extremes (h : s.Bounds e value) (hsame : s'.extremes e = s.extremes e) :
    s'.Bounds e value := by
  unfold Bounds at h ⊢
  rw [hsame]
  exact h

theorem take_self : (s.take e).extremes e = s.values e.input :=
  Function.update_self e _ s.extremes

theorem take_other (h : e' ≠ e) : (s.take e).extremes e' = s.extremes e' :=
  Function.update_of_ne h _ s.extremes

/-- Raising a maximum loses no bound, and the value of the input is bounded after it. -/
theorem Bounds.raise (hmax : e.isMin = false) (h : s.Bounds e' value) :
    (s.raise e).Bounds e' value := by
  unfold PeakRecall.raise
  split_ifs with hhigher
  · by_cases hsame : e' = e
    · subst hsame
      rw [bounds_max hmax] at h ⊢
      rw [take_self]
      exact le_trans h hhigher.le
    · exact h.of_extremes (take_other hsame)
  · exact h

theorem bounds_raise_self (hmax : e.isMin = false) : (s.raise e).Bounds e (s.values e.input) := by
  rw [bounds_max hmax]
  unfold raise
  split_ifs with hhigher
  · exact take_self.ge
  · exact not_lt.mp hhigher

theorem Bounds.lower (hmin : e.isMin = true) (h : s.Bounds e' value) :
    (s.lower e).Bounds e' value := by
  unfold PeakRecall.lower
  split_ifs with hlower
  · by_cases hsame : e' = e
    · subst hsame
      rw [bounds_min hmin] at h ⊢
      rw [take_self]
      exact fun hpos => le_trans hlower.le (h hpos)
    · exact h.of_extremes (take_other hsame)
  · exact h

theorem bounds_lower_self (hmin : e.isMin = true) : (s.lower e).Bounds e (s.values e.input) := by
  rw [bounds_min hmin]
  intro _
  unfold lower
  split_ifs with hlower
  · exact take_self.le
  · exact not_lt.mp hlower

theorem values_lower (s : PeakRecall) (e : Extreme) : (s.lower e).values = s.values := by
  unfold lower
  split_ifs <;> rfl

end Extremes

section Change

variable {s : PeakRecall} {e : Extreme} {input : PeakInput} {value : ℚ}

/-- A change does nothing but raise maxima and lower minima. -/
theorem onChanged_induction {P : PeakRecall → Prop} (hs : P s)
    (hraise : ∀ s' e, Extreme.isMin e = false → P s' → P (s'.raise e))
    (hlower : ∀ s' e, Extreme.isMin e = true → P s' → P (s'.lower e)) (input : PeakInput) :
    P (s.onChanged input) := by
  have hpeak : ∀ e, e.isMin = false → P (s.onPeakChanged e) := by
    intro e hmax
    unfold onPeakChanged
    split_ifs
    · exact hraise s e hmax hs
    · exact hs
  have hmin : ∀ e, e.isMin = true → P (s.onMinChanged e) := by
    intro e hmin
    unfold onMinChanged
    split_ifs
    · exact hlower s e hmin hs
    · exact hs
  cases input with
  | oilPressure => exact hmin .minOilPressure rfl
  | batteryVoltage => exact hmin .minBatteryVoltage rfl
  | afr =>
    change P s.onAfrChanged
    unfold onAfrChanged
    split_ifs
    · exact hraise _ .maxAfr rfl (hlower s .minAfr rfl hs)
    · exact hs
  | rpm => exact hpeak .peakRpm rfl
  | speed => exact hpeak .peakSpeed rfl
  | coolantTemp => exact hpeak .peakCoolantTemp rfl
  | oilTemp => exact hpeak .peakOilTemp rfl
  | boostPsi => exact hpeak .peakBoostPsi rfl
  | iat => exact hpeak .peakIat rfl
  | egt => exact hpeak .peakEgt rfl

/-- A change loses no bound. -/
theorem Bounds.onChanged (h : s.Bounds e value) (input : PeakInput) :
    (s.onChanged input).Bounds e value := by
  apply onChanged_induction (P := fun s' => s'.Bounds e value) h
  · exact fun s' e' hmax hs => hs.raise hmax
  · exact fun s' e' hmin hs => hs.lower hmin

theorem Bounds.assigned (h : s.Bounds e value) (input : PeakInput) (new : ℚ) :
    ((s.assign input new).onChanged input).Bounds e value := by
  have hbefore : (s.assign input new).Bounds e value := h
  exact hbefore.onChanged input

/-- While tracking, the extremes of an input bound its value after a change. -/
theorem bounds_onChanged_self (htracking : s.isTracking = true) (hafr : 0 < s.extremes .maxAfr)
    (e : Extreme) : (s.onChanged e.input).Bounds e (s.values e.input) := by
  have hpeak : ∀ e' : Extreme, e'.isMin = false →
      (s.onPeakChanged e').Bounds e' (s.values e'.input) := by
    intro e' hmax
    unfold onPeakChanged
    rw [if_pos htracking]
    exact bounds_raise_self hmax
  have hmin : ∀ e' : Extreme, e'.isMin = true →
      (s.onMinChanged e').Bounds e' (s.values e'.input) := by
    intro e' hmin
    unfold onMinChanged
    split_ifs with hpos
    · exact bounds_lower_self hmin
    · rw [bounds_min hmin]
      exact fun hvalue => absurd ⟨htracking, hvalue⟩ hpos
  cases e with
  | minOilPressure => exact hmin .minOilPressure rfl
  | minBatteryVoltage => exact hmin .minBatteryVoltage rfl
  | minAfr =>
    change s.onAfrChanged.Bounds .minAfr (s.values .afr)
    unfold onAfrChanged
    split_ifs with hpos
    · exact (bounds_lower_self (e := .minAfr) rfl).raise rfl
    · rw [bounds_min rfl]
      exact fun hvalue => absurd ⟨htracking, hvalue⟩ hpos
  | maxAfr =>
    change s.onAfrChanged.Bounds .maxAfr (s.values .afr)
    unfold onAfrChanged
    split_ifs with hpos
    · have hself := bounds_raise_self (s := s.lower .minAfr) (e := .maxAfr) rfl
      rw [values_lower] at hself
      exact hself
    · rw [bounds_max rfl]
      have hvalue := not_lt.mp fun hvalue => hpos ⟨htracking, hvalue⟩
      exact hvalue.trans hafr.le
  | peakRpm => exact hpeak .peakRpm rfl
  | peakSpeed => exact hpeak .peakSpeed rfl
  | peakCoolantTemp => exact hpeak .peakCoolantTemp rfl
  | peakOilTemp => exact hpeak .peakOilTemp rfl
  | peakBoostPsi => exact hpeak .peakBoostPsi rfl
  | peakIat => exact hpeak .peakIat rfl
  | peakEgt => exact hpeak .peakEgt rfl

theorem onChanged_paused (h : s.isTracking = false) (input : PeakInput) :
    s.onChanged input = s := by
  have hpeak : ∀ e, s.onPeakChanged e = s := fun e => if_neg (by simp [h])
  have hmin : ∀ e, s.onMinChanged e = s := fun e => if_neg (by simp [h])
  have hafr : s.onAfrChanged = s := if_neg (by simp [h])
  cases input with
  | afr => exact hafr
  | oilPressure => exact hmin _
  | batteryVoltage => exact hmin _
  | _ => exact hpeak _

theorem tracking_onChanged (s : PeakRecall) (input : PeakInput) :
    (s.onChanged input).isTracking = s.isTracking := by
  apply onChanged_induction (P := fun s' => s'.isTracking = s.isTracking) rfl
  · intro s' e _ hs
    unfold raise
    split_ifs <;> exact hs
  · intro s' e _ hs
    unfold lower
    split_ifs <;> exact hs

/-- A reset takes the values that there are, but for those of the engine and the road speed. -/
theorem bounds_resetPeaks (s : PeakRecall) (now : ℤ) (e : Extreme) :
    (s.resetPeaks now).Bounds e (s.values e.input) ↔
      (e = .peakRpm ∨ e = .peakSpeed → s.values e.input ≤ 0) := by
  have hmin : ∀ value default : ℚ, 0 < value → (if 0 < value then value else default) ≤ value :=
    fun value default hpos => (if_pos hpos).le
  cases e with
  | peakRpm => exact (bounds_max rfl).trans (by simp; rfl)
  | peakSpeed => exact (bounds_max rfl).trans (by simp; rfl)
  | minOilPressure => exact iff_of_true ((bounds_min rfl).mpr (hmin _ _)) (by simp)
  | minAfr => exact iff_of_true ((bounds_min rfl).mpr (hmin _ _)) (by simp)
  | minBatteryVoltage => exact iff_of_true ((bounds_min rfl).mpr (hmin _ _)) (by simp)
  | maxAfr =>
    refine iff_of_true ((bounds_max rfl).mpr ?_) (by simp)
    change s.values .afr ≤ if 0 < s.values .afr then s.values .afr else 10
    split_ifs with hpos
    · exact le_refl _
    · exact (not_lt.mp hpos).trans (by norm_num)
  | _ => exact iff_of_true ((bounds_max rfl).mpr (le_refl _)) (by simp)

theorem maxAfr_resetPeaks (s : PeakRecall) (now : ℤ) : 0 < (s.resetPeaks now).extremes .maxAfr := by
  change 0 < if 0 < s.values .afr then s.values .afr else 10
  split_ifs with hpos
  · exact hpos
  · norm_num

end Change

structure PeakTrace where
  peaks : PeakRecall := {}
  seen : PeakInput → List ℚ
  /-- The engine and the road speed at a reset that was made while paused. -/
  pausedReset : Option (ℚ × ℚ) := none

namespace PeakTrace

section Steps

variable (t : PeakTrace)

def step (op : Op) : PeakTrace :=
  match op with
  | .change input value =>
    { t with
      peaks := t.peaks.step op
      seen :=
        if t.peaks.isTracking ∧ value ≠ t.peaks.values input then
          Function.update t.seen input (value :: t.seen input)
        else t.seen }
  | .resetPeaks _ =>
    { peaks := t.peaks.step op
      seen := fun input => [t.peaks.values input]
      pausedReset :=
        if t.peaks.isTracking then none else some (t.peaks.values .rpm, t.peaks.values .speed) }
  | .toggleTracking =>
    if t.peaks.isTracking then { t with peaks := t.peaks.step op }
    else
      { peaks := t.peaks.step op
        seen := fun input => t.peaks.values input :: t.seen input
        pausedReset := none }
  | .tick _ => { t with peaks := t.peaks.step op }

theorem step_peaks (op : Op) : (t.step op).peaks = t.peaks.step op := by
  unfold step
  cases op with
  | toggleTracking => dsimp only; split_ifs <;> rfl
  | _ => rfl

/-- While tracking, the extremes bound what was seen. -/
def Dominates : Prop :=
  t.peaks.isTracking = true → ∀ e, ∀ value ∈ t.seen e.input, t.peaks.Bounds e value

/-- A reset while tracking finds neither the engine nor the car running forward, and a resumption
    finds every input within its extremes. -/
def KeepsBounds (op : Op) : Prop :=
  match op with
  | .resetPeaks _ =>
    t.peaks.isTracking = true → t.peaks.values .rpm ≤ 0 ∧ t.peaks.values .speed ≤ 0
  | .toggleTracking =>
    t.peaks.isTracking = false →
      (∀ e : Extreme, t.peaks.Bounds e (t.peaks.values e.input)) ∧
        ∀ speeds ∈ t.pausedReset, speeds.1 ≤ 0 ∧ speeds.2 ≤ 0
  | _ => True

structure Coherent : Prop where
  maxAfr : 0 < t.peaks.extremes .maxAfr
  /-- While paused the extremes bound what was seen, but for the speeds at a reset. -/
  paused : t.peaks.isTracking = false → ∀ e : Extreme,
    t.pausedReset = none ∨ ¬ (e = .peakRpm ∨ e = .peakSpeed) →
      ∀ value ∈ t.seen e.input, t.peaks.Bounds e value
  reset : ∀ rpm speed, t.pausedReset = some (rpm, speed) →
    t.peaks.isTracking = false ∧ (t.seen .rpm = [rpm] ∧ t.peaks.extremes .peakRpm = 0) ∧
      (t.seen .speed = [speed] ∧ t.peaks.extremes .peakSpeed = 0)

end Steps

variable {t : PeakTrace}

section Change

variable {input : PeakInput} {value : ℚ}

theorem change_same (h : value = t.peaks.values input) : t.step (.change input value) = t := by
  unfold step PeakRecall.step
  simp [h]

theorem change_paused (hpaused : t.peaks.isTracking = false)
    (hvalue : value ≠ t.peaks.values input) :
    t.step (.change input value) = { t with peaks := t.peaks.assign input value } := by
  have hsame : (t.peaks.assign input value).onChanged input = t.peaks.assign input value :=
    onChanged_paused (s := t.peaks.assign input value) hpaused input
  unfold step PeakRecall.step
  dsimp only
  rw [if_neg hvalue, hsame]
  simp [hpaused]

theorem change_tracking (htracking : t.peaks.isTracking = true)
    (hvalue : value ≠ t.peaks.values input) :
    t.step (.change input value) = { t with
      peaks := (t.peaks.assign input value).onChanged input
      seen := Function.update t.seen input (value :: t.seen input) } := by
  unfold step PeakRecall.step
  dsimp only
  rw [if_neg hvalue]
  simp [htracking, hvalue]

theorem bounds_change (htracking : t.peaks.isTracking = true)
    (hmaxAfr : 0 < t.peaks.extremes .maxAfr) (h : t.Dominates) (e : Extreme) (v : ℚ)
    (hv : v ∈ Function.update t.seen input (value :: t.seen input) e.input) :
    ((t.peaks.assign input value).onChanged input).Bounds e v := by
  by_cases hinput : e.input = input
  · subst hinput
    rw [Function.update_self] at hv
    rcases List.mem_cons.mp hv with rfl | hold
    · have hself := bounds_onChanged_self (s := t.peaks.assign e.input v) htracking hmaxAfr e
      have hvalue : (t.peaks.assign e.input v).values e.input = v := Function.update_self _ _ _
      rw [hvalue] at hself
      exact hself
    · exact (h htracking e v hold).assigned e.input value
  · rw [Function.update_of_ne hinput] at hv
    exact (h htracking e v hv).assigned input value

theorem change_keeps (input : PeakInput) (value : ℚ) (hcoherent : t.Coherent) (h : t.Dominates) :
    (t.step (.change input value)).Coherent ∧ (t.step (.change input value)).Dominates := by
  by_cases hsame : value = t.peaks.values input
  · rw [change_same hsame]
    exact ⟨hcoherent, h⟩
  obtain ⟨hmaxAfr, hpausedSeen, hreset⟩ := hcoherent
  cases htracking : t.peaks.isTracking with
  | false =>
    rw [change_paused htracking hsame]
    refine ⟨⟨hmaxAfr, hpausedSeen, hreset⟩, fun htracking' => ?_⟩
    cases htracking.symm.trans htracking'
  | true =>
    rw [change_tracking htracking hsame]
    have htracking' : ((t.peaks.assign input value).onChanged input).isTracking = true :=
      (tracking_onChanged _ _).trans htracking
    refine ⟨⟨?_, fun hpaused => ?_, fun rpm speed hsome => ?_⟩,
      fun _ => bounds_change htracking hmaxAfr h⟩
    · have hself : t.peaks.Bounds .maxAfr (t.peaks.extremes .maxAfr) :=
        (bounds_max rfl).mpr (le_refl _)
      exact lt_of_lt_of_le hmaxAfr ((bounds_max rfl).mp (hself.assigned input value))
    · cases htracking'.symm.trans hpaused
    · cases htracking.symm.trans (hreset rpm speed hsome).1

end Change

section Reset

variable (now : ℤ)

theorem reset_tracking (htracking : t.peaks.isTracking = true) :
    ((t.step (.resetPeaks now)).Dominates ↔ t.KeepsBounds (.resetPeaks now)) ∧
      (t.step (.resetPeaks now)).Coherent := by
  have hnone : (t.step (.resetPeaks now)).pausedReset = none := if_pos htracking
  refine ⟨?_, maxAfr_resetPeaks t.peaks now, fun hpaused => ?_, fun rpm speed hsome => ?_⟩
  · unfold KeepsBounds
    change (t.peaks.isTracking = true → ∀ e : Extreme, ∀ v ∈ [t.peaks.values e.input],
      (t.peaks.resetPeaks now).Bounds e v) ↔ _
    simp only [List.forall_mem_singleton, bounds_resetPeaks]
    refine imp_congr_right fun _ => ⟨fun hall => ⟨hall .peakRpm (.inl rfl),
      hall .peakSpeed (.inr rfl)⟩, ?_⟩
    rintro ⟨hrpm, hspeed⟩ e (rfl | rfl)
    · exact hrpm
    · exact hspeed
  · cases htracking.symm.trans hpaused
  · cases hnone.symm.trans hsome

theorem reset_paused (hpaused : t.peaks.isTracking = false) :
    (t.step (.resetPeaks now)).Dominates ∧ (t.step (.resetPeaks now)).Coherent := by
  have hsome : (t.step (.resetPeaks now)).pausedReset =
      some (t.peaks.values .rpm, t.peaks.values .speed) := if_neg (by simp [hpaused])
  refine ⟨fun htracking => ?_, maxAfr_resetPeaks t.peaks now, fun _ e he v hv => ?_,
    fun rpm speed hspeeds => ?_⟩
  · cases hpaused.symm.trans htracking
  · obtain rfl := List.mem_singleton.mp hv
    refine (bounds_resetPeaks t.peaks now e).mpr fun hspeed => ?_
    rcases he with hnone | hother
    · cases hsome.symm.trans hnone
    · exact absurd hspeed hother
  · cases hsome.symm.trans hspeeds
    exact ⟨hpaused, ⟨rfl, rfl⟩, rfl, rfl⟩

end Reset

section Toggle

theorem pause (htracking : t.peaks.isTracking = true) (hcoherent : t.Coherent)
    (h : t.Dominates) :
    (t.step .toggleTracking).Dominates ∧ (t.step .toggleTracking).Coherent := by
  have hstep : t.step .toggleTracking = { t with peaks := t.peaks.toggleTracking } :=
    if_pos htracking
  have hpaused : t.peaks.toggleTracking.isTracking = false := congrArg not htracking
  rw [hstep]
  refine ⟨fun htracking' => ?_, hcoherent.maxAfr, fun _ e _ => ?_, fun rpm speed hsome => ?_⟩
  · cases hpaused.symm.trans htracking'
  · exact h htracking e
  · cases htracking.symm.trans (hcoherent.reset rpm speed hsome).1

/-- Where no reset came while paused, nothing that was seen is out of bounds. Else it is a speed at
    that reset, which left the peaks at zero. -/
theorem Coherent.bounds_seen (h : t.Coherent) (hpaused : t.peaks.isTracking = false) :
    (∀ e : Extreme, ∀ value ∈ t.seen e.input, t.peaks.Bounds e value) ↔
      ∀ speeds ∈ t.pausedReset, speeds.1 ≤ 0 ∧ speeds.2 ≤ 0 := by
  cases hreset : t.pausedReset with
  | none => exact iff_of_true (fun e => h.paused hpaused e (.inl hreset)) nofun
  | some speeds =>
    obtain ⟨-, ⟨hrpm, hpeakRpm⟩, hspeed, hpeakSpeed⟩ := h.reset speeds.1 speeds.2 hreset
    have hrpmBounds : t.peaks.Bounds .peakRpm speeds.1 ↔ speeds.1 ≤ 0 := by
      rw [bounds_max rfl, hpeakRpm]
    have hspeedBounds : t.peaks.Bounds .peakSpeed speeds.2 ↔ speeds.2 ≤ 0 := by
      rw [bounds_max rfl, hpeakSpeed]
    constructor
    · rintro hall _ ⟨⟩
      exact ⟨hrpmBounds.mp (hall .peakRpm _ (hrpm ▸ List.mem_singleton_self _)),
        hspeedBounds.mp (hall .peakSpeed _ (hspeed ▸ List.mem_singleton_self _))⟩
    · intro hspeeds e value hvalue
      obtain ⟨hrpmLow, hspeedLow⟩ := hspeeds speeds rfl
      by_cases he : e = .peakRpm ∨ e = .peakSpeed
      · rcases he with rfl | rfl
        · obtain rfl := List.mem_singleton.mp (hrpm ▸ hvalue)
          exact hrpmBounds.mpr hrpmLow
        · obtain rfl := List.mem_singleton.mp (hspeed ▸ hvalue)
          exact hspeedBounds.mpr hspeedLow
      · exact h.paused hpaused e (.inr he) value hvalue

/-- A resumption keeps the bounds where they bound the values that there are, and the speeds at a
    reset while paused. -/
theorem resume (hpaused : t.peaks.isTracking = false) (hcoherent : t.Coherent) :
    ((t.step .toggleTracking).Dominates ↔ t.KeepsBounds .toggleTracking) ∧
      (t.step .toggleTracking).Coherent := by
  have hstep : t.step .toggleTracking =
      { peaks := t.peaks.toggleTracking
        seen := fun input => t.peaks.values input :: t.seen input
        pausedReset := none } := if_neg (by simp [hpaused])
  have htracking : t.peaks.toggleTracking.isTracking = true := congrArg not hpaused
  rw [hstep]
  refine ⟨?_, hcoherent.maxAfr, fun hpaused' => ?_, nofun⟩
  · unfold KeepsBounds
    dsimp only
    rw [← hcoherent.bounds_seen hpaused, forall_prop_of_true hpaused, ← forall_and]
    refine (forall_prop_of_true htracking).trans (forall_congr' fun e => ?_)
    exact List.forall_mem_cons
  · cases htracking.symm.trans hpaused'

end Toggle

theorem step_keeps (op : Op) (hcoherent : t.Coherent) (h : t.Dominates) :
    ((t.step op).Dominates ↔ t.KeepsBounds op) ∧ (t.step op).Coherent := by
  cases op with
  | change input value =>
    obtain ⟨hcoherent', h'⟩ := change_keeps input value hcoherent h
    exact ⟨iff_of_true h' trivial, hcoherent'⟩
  | resetPeaks now =>
    cases htracking : t.peaks.isTracking with
    | true => exact reset_tracking now htracking
    | false =>
      obtain ⟨h', hcoherent'⟩ := reset_paused now htracking
      refine ⟨iff_of_true h' fun htracking' => ?_, hcoherent'⟩
      cases htracking.symm.trans htracking'
  | toggleTracking =>
    cases htracking : t.peaks.isTracking with
    | true =>
      obtain ⟨h', hcoherent'⟩ := pause htracking hcoherent h
      refine ⟨iff_of_true h' fun hpaused => ?_, hcoherent'⟩
      cases htracking.symm.trans hpaused
    | false => exact resume htracking hcoherent
  | tick now =>
    obtain ⟨hmaxAfr, hpaused, hreset⟩ := hcoherent
    exact ⟨iff_of_true h trivial, hmaxAfr, hpaused, hreset⟩

/-- The extremes bound what was seen in every state of a run exactly where they do at its start,
    whatever counts as seen there, and every step keeps their bounds. -/
theorem peaks_dominate_iff (seen : PeakInput → List ℚ) (ops : List Op) :
    EveryState step Dominates { seen := seen } ops ↔
      Dominates { seen := seen } ∧ EveryStep step KeepsBounds { seen := seen } ops := by
  have hcoherent : Coherent { seen := seen } := ⟨by norm_num, nofun, nofun⟩
  have hrun : Dominates { seen := seen } → (EveryState step Dominates { seen := seen } ops ↔
      EveryStep step KeepsBounds { seen := seen } ops) := by
    refine everyState_iff_of Coherent (fun _ _ => True) (fun _ _ _ => trivial) ?_ ?_ hcoherent
    · intro t op _ hcoherent h _
      exact (step_keeps op hcoherent h).2
    · intro t op _ hcoherent h
      exact (step_keeps op hcoherent h).1
  constructor
  · intro h
    have hstart : Dominates { seen := seen } := h [] List.nil_prefix
    exact ⟨hstart, (hrun hstart).mp h⟩
  · rintro ⟨hstart, hsteps⟩
    exact (hrun hstart).mpr hsteps

/-- A reset at 3000 rpm leaves the peak at zero. -/
theorem reset_below_current :
    ¬ ∀ ops, EveryState step Dominates { seen := fun _ => [] } ops := by
  intro h
  have hdominates := h [.change .rpm 3000, .resetPeaks 0] _ List.prefix_rfl
  have hpeak := hdominates rfl .peakRpm 3000 (by decide +kernel)
  revert hpeak
  decide +kernel

end PeakTrace

end PeakRecall

end SpeeduinoDash
