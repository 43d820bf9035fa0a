import Mathlib.Data.Nat.Bitwise
import SpeeduinoDash.Lib.Alternation
import SpeeduinoDash.Lib.ByteOrder
import SpeeduinoDash.ReverseDebounce

set_option autoImplicit false

/-!
# The reverse service

The main program opens a CAN socket, filters it and feeds what it reads to the detector. What
the kernel queues for a filter is a parameter; polls and reads of the open socket succeed.
-/
namespace SpeeduinoDash
open Lib.Alternation Lib.ByteOrder Lib.Runs
open ReverseDetector (Event started)

def canSffMask : UInt32 := 0x7FF

def gpioCheckIntervalMs : ℕ := 50

structure SocketCalls where
  socket : Bool
  ioctl : Bool
  bind : Bool

def SocketCalls.ok : SocketCalls := ⟨true, true, true⟩

structure ReverseService where
  detector : ReverseDetector
  canSocket : Bool
  filterId : UInt32
  queue : List KernelFrame := []
  lastGpioCheck : ℕ

namespace ReverseService

/-- Whether the socket is open after the setup, nothing if the program gives up. -/
def openCanSocket (config : ReverseConfig) (calls : SocketCalls) : Option Bool :=
  if config.canEnabled then
    if ¬ calls.socket then
      if ¬ config.gpioEnabled then none else some false
    else if ¬ calls.ioctl then some false
    else if ¬ calls.bind then some false
    else some true
  else some false

def startUp (config : ReverseConfig) (calls : SocketCalls) (initGpio : Bool) (start : ℕ) :
    Option ReverseService :=
  (openCanSocket config calls).map (fun canSocket =>
    { detector := started config initGpio start
      canSocket := canSocket
      filterId := config.canId
      lastGpioCheck := start })

def frameEvent (cf : KernelFrame) (now : ℕ) : Event :=
  .canFrame (cf.canId &&& canSffMask) cf.byteAt cf.canDlc now

inductive Op where
  | arrive (cf : KernelFrame)
  | iterate (line : Bool) (frameNow loopNow gpioNow : ℕ)

variable (delivers : UInt32 → UInt32 → KernelFrame → Bool)

def poll (s : ReverseService) (now : ℕ) : List Event :=
  if s.canSocket then (s.queue.head?.map (frameEvent · now)).toList else []

def gpioDue (s : ReverseService) (loopNow : ℕ) : Bool :=
  s.lastGpioCheck + gpioCheckIntervalMs * 1000000 ≤ loopNow

/-- The state after an operation and what the detector has been called with. -/
def react (s : ReverseService) : Op → ReverseService × List Event
  | .arrive cf =>
    ({ s with
      queue := if s.canSocket && delivers s.filterId canSffMask cf then s.queue ++ [cf] else s.queue },
      [])
  | .iterate line frameNow loopNow gpioNow =>
    let events := s.poll frameNow ++ if s.gpioDue loopNow then [.gpioCheck line gpioNow] else []
    ({ s with
      detector := run ReverseDetector.step s.detector events
      queue := if s.canSocket then s.queue.tail else s.queue
      lastGpioCheck := if s.gpioDue loopNow then loopNow else s.lastGpioCheck }, events)

def after (s : ReverseService) (ops : List Op) : ReverseService := run (next (react delivers)) s ops

def calls (s : ReverseService) (ops : List Op) : List Event := emitted (react delivers) s ops

theorem detector_after (s : ReverseService) (ops : List Op) :
    (s.after delivers ops).detector =
      run ReverseDetector.step s.detector (s.calls delivers ops) := by
  induction ops using List.reverseRecOn with
  | nil => rfl
  | append_singleton ops op ih =>
    unfold after calls at ih ⊢
    rw [run_snoc, emitted_snoc, run_append, ← ih]
    cases op <;> rfl

section Feeding

def fields (cf : KernelFrame) : UInt32 × (ℕ → UInt8) × UInt8 :=
  (cf.canId &&& canSffMask, cf.byteAt, cf.canDlc)

def Op.arrived : Op → Option KernelFrame
  | .arrive cf => some cf
  | .iterate _ _ _ _ => none

def arrivals (ops : List Op) : List KernelFrame := ops.filterMap Op.arrived

end Feeding

section Identity

/-- A standard data frame with the configured identifier, as `CanInterface::receive` tells frames
    apart. -/
def Matches (config : ReverseConfig) (cf : KernelFrame) : Bool :=
  let frame := CanInterface.fromKernelFrame cf 0
  !frame.isExtended && !frame.isRtr && !frame.isError && frame.id == config.canId &&
    decide (frame.id ≤ canStdIdMax)

theorem toNat_and_canSffMask (x : UInt32) : (x &&& canSffMask).toNat = x.toNat % 2 ^ 11 := by
  have hmask : canSffMask = UInt32.ofNat (2 ^ 11 - 1) := by decide
  rw [hmask, toNat_and_mask x 11 (by omega)]

theorem matches_iff (config : ReverseConfig) (cf : KernelFrame) :
    Matches config cf = true ↔ cf.canId = config.canId ∧ config.canId ≤ canStdIdMax := by
  have hext := flag_clear_iff cf.canId 31 (by omega)
  have hrtr := flag_clear_iff cf.canId 30 (by omega)
  have herr := flag_clear_iff cf.canId 29 (by omega)
  have hid := toNat_and_mask cf.canId 29 (by omega)
  have hbound := cf.canId.toNat_lt
  have hmax : canStdIdMax.toNat = 0x7FF := rfl
  have hmatches : Matches config cf = (!(cf.canId &&& UInt32.ofNat (2 ^ 31) != 0) &&
      !(cf.canId &&& UInt32.ofNat (2 ^ 30) != 0) && !(cf.canId &&& UInt32.ofNat (2 ^ 29) != 0) &&
      (cf.canId &&& UInt32.ofNat (2 ^ 29 - 1)) == config.canId &&
      decide ((cf.canId &&& UInt32.ofNat (2 ^ 29 - 1)) ≤ canStdIdMax)) := rfl
  rw [hmatches]
  simp only [Bool.and_eq_true, Bool.not_eq_true', hext, hrtr, herr, beq_iff_eq, decide_eq_true_eq]
  constructor
  · rintro ⟨⟨⟨⟨h31, h30⟩, h29⟩, hsame⟩, hstd⟩
    rw [hsame] at hstd
    refine ⟨?_, hstd⟩
    rw [← hsame]
    apply UInt32.toNat_inj.mp
    rw [hid]
    omega
  · rintro ⟨hsame, hstd⟩
    have hsmall : cf.canId.toNat ≤ 0x7FF := by
      rw [hsame]
      exact hstd
    have hwhole : cf.canId &&& UInt32.ofNat (2 ^ 29 - 1) = cf.canId := by
      apply UInt32.toNat_inj.mp
      rw [hid]
      omega
    rw [hwhole]
    exact ⟨⟨⟨⟨by omega, by omega⟩, by omega⟩, hsame⟩, by rw [hsame]; exact hstd⟩

/-- The service takes frames for the reverse signal by their low eleven bits. -/
theorem canSample_isSome (config : ReverseConfig) (initGpio : Bool) (start : ℕ)
    (events : List Event) (cf : KernelFrame) (now : ℕ) :
    ((run ReverseDetector.step (started config initGpio start) events).canSample
      (frameEvent cf now)).isSome ↔ config.effectiveSources.1 = true ∧
        cf.canId &&& canSffMask = config.canId ∧ config.byteIndex < cf.canDlc := by
  have hsame : (run ReverseDetector.step (started config initGpio start) events).canSample =
      (started config initGpio start).canSample := by
    have hconfig := (ReverseDetector.run_config (started config initGpio start) events).1
    funext e
    cases e <;> simp [ReverseDetector.canSample, hconfig]
  rw [hsame, frameEvent, ReverseDetector.canSample_started]
  split_ifs with h
  · exact iff_of_true rfl h
  · exact iff_of_false Bool.false_ne_true h

/-- A frame counts as the reverse signal only if it is one, except where the configured identifier
    is in its low eleven bits and something else above them. -/
theorem taken_matches_iff (config : ReverseConfig) (initGpio : Bool) (start : ℕ)
    (events : List Event) (cf : KernelFrame) (now : ℕ) :
    (((run ReverseDetector.step (started config initGpio start) events).canSample
      (frameEvent cf now)).isSome → Matches config cf = true) ↔
      (config.effectiveSources.1 = true → config.byteIndex < cf.canDlc →
        cf.canId &&& canSffMask = config.canId → cf.canId = config.canId) := by
  rw [canSample_isSome, matches_iff]
  have hlow := toNat_and_canSffMask cf.canId
  have hmax : canStdIdMax.toNat = 0x7FF := rfl
  constructor
  · intro h heffective hbyte hid
    exact (h ⟨heffective, hid, hbyte⟩).1
  · rintro h ⟨heffective, hid, hbyte⟩
    refine ⟨h heffective hbyte hid, ?_⟩
    rw [← hid, UInt32.le_iff_toNat_le, hmax, hlow]
    omega

/-- Documented behaviour of `CAN_RAW_FILTER`, for filters that are not inverted and frames that do
    not report errors. -/
def KernelFilter (delivers : UInt32 → UInt32 → KernelFrame → Bool) : Prop :=
  ∀ id mask cf, id &&& canErrFlag = 0 → mask &&& canErrFlag = 0 → cf.canId &&& canErrFlag = 0 →
    (delivers id mask cf = true ↔ cf.canId &&& mask = id &&& mask)

def maskedFilter (id mask : UInt32) (cf : KernelFrame) : Bool :=
  cf.canId &&& canErrFlag == 0 && cf.canId &&& mask == id &&& mask

theorem maskedFilter_documented : KernelFilter maskedFilter := by
  intro id mask cf _ _ hcf
  simp [maskedFilter, hcf]

/-- A 29-bit identifier that ends in the configured one. -/
def extendedFrame : KernelFrame where
  canId := 0x98DA0370
  canDlc := 8
  data := Vector.replicate 8 0x80

theorem extended_frame_taken :
    ¬ ∀ delivers, KernelFilter delivers → ∀ (config : ReverseConfig) (cf : KernelFrame) (now : ℕ),
      delivers config.canId canSffMask cf = true →
      ((started config false 0).canSample (frameEvent cf now)).isSome → Matches config cf = true := by
  intro hclaim
  have hmatches := hclaim maskedFilter maskedFilter_documented {} extendedFrame 0 (by decide)
    (by decide)
  exact absurd hmatches (by decide)

end Identity

end ReverseService

end SpeeduinoDash
