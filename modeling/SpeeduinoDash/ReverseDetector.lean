import SpeeduinoDash.CanInterface
import SpeeduinoDash.Config
import SpeeduinoDash.Lib.Debounce

set_option autoImplicit false

/-!
# The reverse gear detector

Times are readings of the steady clock in nanoseconds; a call reads it once. `initGpio` is
whether the GPIO line could be requested, `line` whether it then reads active.
-/
namespace SpeeduinoDash
open Lib.Debounce

inductive Source where
  | can
  | gpio
deriving DecidableEq

def Source.code : Source → UInt8
  | .can => 0
  | .gpio => 1

structure ReverseDetector where
  config : ReverseConfig := {}
  engaged : Bool := false
  lastChangeTimestamp : UInt32 := 0
  source : Source := .can
  lastTransition : ℕ := 0
  pendingState : Bool := false
  gpioInitialized : Bool := false

structure ReverseChange where
  engaged : Bool
  source : Source
deriving DecidableEq

/-- Which sources the detection mode leaves enabled: CAN, then GPIO. -/
def ReverseConfig.effectiveSources (config : ReverseConfig) : Bool × Bool :=
  if config.detectionMode = "gpio" then (false, true)
  else if config.detectionMode = "can" ∨ config.detectionMode = "speeduino_can" then (true, false)
  else (config.canEnabled, config.gpioEnabled)

namespace ReverseDetector

def init (d : ReverseDetector) (config : ReverseConfig) (initGpio : Bool) (now : ℕ) :
    ReverseDetector :=
  let (effectiveCanEnabled, effectiveGpioEnabled) := config.effectiveSources
  { d with
    config := { config with canEnabled := effectiveCanEnabled, gpioEnabled := effectiveGpioEnabled }
    gpioInitialized := d.gpioInitialized || effectiveGpioEnabled && initGpio
    lastTransition := now }

def isReverseEngaged (d : ReverseDetector) : Bool := d.engaged

def getSource (d : ReverseDetector) : Source := d.source

def setState (d : ReverseDetector) (engaged : Bool) (source : Source) (now : ℕ) :
    ReverseDetector × Option ReverseChange :=
  ({ d with
      engaged := engaged
      source := source
      lastChangeTimestamp := getMonotonicMs (now / 1000000) },
    if engaged ≠ d.engaged then some ⟨engaged, source⟩ else none)

/-- What both sources do with a reading, under the mutex and after it. -/
def debounce (d : ReverseDetector) (reading : Bool) (source : Source) (now : ℕ) :
    ReverseDetector × Option ReverseChange :=
  let elapsed := (now - d.lastTransition) / 1000000
  if reading ≠ d.pendingState then
    ({ d with pendingState := reading, lastTransition := now }, none)
  else if d.config.debounceMs.toNat ≤ elapsed ∧ d.pendingState ≠ d.engaged then
    d.setState d.pendingState source now
  else (d, none)

def procesCanFrame (d : ReverseDetector) (canId : UInt32) (data : ℕ → UInt8) (dlc : UInt8)
    (now : ℕ) : ReverseDetector × Option ReverseChange :=
  if ¬ d.config.canEnabled then (d, none)
  else if canId ≠ d.config.canId then (d, none)
  else if d.config.byteIndex ≥ dlc then (d, none)
  else
    let value := data d.config.byteIndex.toNat &&& d.config.bitMask
    d.debounce (value == d.config.expectedValue) .can now

def checkGpio (d : ReverseDetector) (line : Bool) (now : ℕ) :
    ReverseDetector × Option ReverseChange :=
  if ¬ d.config.gpioEnabled ∨ ¬ d.gpioInitialized then (d, none)
  else d.debounce (if d.config.gpioActiveLow then !line else line) .gpio now

inductive Event where
  | canFrame (canId : UInt32) (data : ℕ → UInt8) (dlc : UInt8) (now : ℕ)
  | gpioCheck (line : Bool) (now : ℕ)

def Event.now : Event → ℕ
  | .canFrame _ _ _ now => now
  | .gpioCheck _ now => now

def react (d : ReverseDetector) : Event → ReverseDetector × Option ReverseChange
  | .canFrame canId data dlc now => d.procesCanFrame canId data dlc now
  | .gpioCheck line now => d.checkGpio line now

def step (d : ReverseDetector) (e : Event) : ReverseDetector := (d.react e).1

def canSample (d : ReverseDetector) : Event → Option (Sample ℕ Bool)
  | .canFrame canId data dlc now =>
    if d.config.canEnabled ∧ canId = d.config.canId ∧ d.config.byteIndex < dlc then
      some (now, data d.config.byteIndex.toNat &&& d.config.bitMask == d.config.expectedValue)
    else none
  | .gpioCheck _ _ => none

def gpioSample (d : ReverseDetector) : Event → Option (Sample ℕ Bool)
  | .canFrame _ _ _ _ => none
  | .gpioCheck line now =>
    if d.config.gpioEnabled ∧ d.gpioInitialized then some (now, line ^^ d.config.gpioActiveLow)
    else none

def sample (d : ReverseDetector) (e : Event) : Option (Sample ℕ Bool) :=
  (d.canSample e).or (d.gpioSample e)

theorem sample_now {d : ReverseDetector} {e : Event} {x : Sample ℕ Bool} (h : d.sample e = some x) :
    x.1 = e.now := by
  cases e <;> simp only [sample, canSample, gpioSample, Option.or_none, Option.none_or] at h <;>
    split_ifs at h <;> exact (congrArg Prod.fst (Option.some.inj h)).symm

/-- Everything an event can do: a sample goes through the debounce, anything else is ignored. -/
theorem react_cases (d : ReverseDetector) (e : Event) :
    (∃ x source, d.sample e = some x ∧ d.react e = d.debounce x.2 source e.now) ∨
    (d.sample e = none ∧ d.react e = (d, none)) := by
  cases e with
  | canFrame canId data dlc now =>
    by_cases h : d.config.canEnabled ∧ canId = d.config.canId ∧ d.config.byteIndex < dlc
    · refine .inl ⟨_, .can, by simp only [sample, canSample, if_pos h]; rfl, ?_⟩
      change d.procesCanFrame canId data dlc now = _
      unfold procesCanFrame
      rw [if_neg (not_not.mpr h.1), if_neg (not_not.mpr h.2.1), if_neg (by simpa using h.2.2)]
      rfl
    · refine .inr ⟨by simp only [sample, canSample, gpioSample, if_neg h]; rfl, ?_⟩
      change d.procesCanFrame canId data dlc now = _
      unfold procesCanFrame
      split_ifs with h1 h2 h3
      · rfl
      · rfl
      · exact absurd ⟨h1, not_not.mp h2, UInt8.not_le.mp h3⟩ h
      · rfl
  | gpioCheck line now =>
    by_cases h : d.config.gpioEnabled ∧ d.gpioInitialized
    · refine .inl ⟨_, .gpio, by simp only [sample, canSample, gpioSample, if_pos h]; rfl, ?_⟩
      change d.checkGpio line now = _
      unfold checkGpio
      rw [if_neg (by simp [h])]
      cases d.config.gpioActiveLow <;> cases line <;> rfl
    · refine .inr ⟨by simp only [sample, canSample, gpioSample, if_neg h]; rfl, ?_⟩
      change d.checkGpio line now = _
      unfold checkGpio
      rw [if_pos (not_and_or.mp h)]

theorem debounce_cases (d : ReverseDetector) (reading : Bool) (source : Source) (now : ℕ) :
    (reading ≠ d.pendingState ∧ d.debounce reading source now =
      ({ d with pendingState := reading, lastTransition := now }, none)) ∨
    (reading = d.pendingState ∧
      (d.config.debounceMs.toNat ≤ (now - d.lastTransition) / 1000000 ∧
        d.pendingState ≠ d.engaged) ∧
      d.debounce reading source now =
        ({ d with
            engaged := d.pendingState
            source := source
            lastChangeTimestamp := getMonotonicMs (now / 1000000) },
          some ⟨d.pendingState, source⟩)) ∨
    (reading = d.pendingState ∧
      ¬ (d.config.debounceMs.toNat ≤ (now - d.lastTransition) / 1000000 ∧
        d.pendingState ≠ d.engaged) ∧
      d.debounce reading source now = (d, none)) := by
  unfold debounce
  dsimp only
  split_ifs with hne hdue
  · exact .inl ⟨hne, rfl⟩
  · refine .inr (.inl ⟨not_not.mp hne, hdue, ?_⟩)
    rw [setState, if_pos hdue.2]
  · exact .inr (.inr ⟨not_not.mp hne, hdue, rfl⟩)

theorem debounce_config (d : ReverseDetector) (reading : Bool) (source : Source) (now : ℕ) :
    (d.debounce reading source now).1.config = d.config ∧
      (d.debounce reading source now).1.gpioInitialized = d.gpioInitialized := by
  obtain ⟨-, h⟩ | ⟨-, -, h⟩ | ⟨-, -, h⟩ := d.debounce_cases reading source now
  all_goals
    rw [h]
    exact ⟨rfl, rfl⟩

theorem step_config (d : ReverseDetector) (e : Event) :
    (d.step e).config = d.config ∧ (d.step e).gpioInitialized = d.gpioInitialized := by
  unfold step
  obtain ⟨x, source, -, h⟩ | ⟨-, h⟩ := react_cases d e
  · rw [h]
    exact d.debounce_config x.2 source e.now
  · rw [h]
    exact ⟨rfl, rfl⟩

theorem sample_congr {d d' : ReverseDetector} (hconfig : d'.config = d.config)
    (hgpio : d'.gpioInitialized = d.gpioInitialized) : d'.sample = d.sample := by
  funext e
  cases e <;> simp [sample, canSample, gpioSample, hconfig, hgpio]

end ReverseDetector

end SpeeduinoDash
