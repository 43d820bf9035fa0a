import Mathlib.Algebra.Field.Rat
import Mathlib.Algebra.Order.Ring.Rat
import SpeeduinoDash.CanWriter

set_option autoImplicit false

/-!
# A command on its way to the bus

The writer builds a frame and hands it to the CAN interface, which checks the id against the kind
of the frame. The writer marks no frame as extended.
-/
namespace SpeeduinoDash.CanWriter
open CanInterface Lib.Runs

/-- The frame on the wire is the command: its id, marked as extended where it has to be, and its
    payload. -/
structure Carries (cf : KernelFrame) (canId : UInt32) (bytes : ℕ → UInt8) (dlc : UInt8) :
    Prop where
  canId : cf.canId = canId ||| (if canStdIdMax < canId then canEffFlag else 0)
  canDlc : cf.canDlc = dlc
  payload : ∀ i (hi : i < 8), i < dlc.toNat → cf.data[i] = bytes i

section Interface

variable (iface : CanInterface) (write : KernelFrame → Bool) (canId : UInt32) (bytes : ℕ → UInt8)
  (dlc : UInt8)

theorem send_buildFrame_long (h : canStdIdMax < canId) :
    (iface.send (buildFrame canId bytes dlc) write).sent = false := by
  rw [CanInterface.send]
  split_ifs with hclosed hdlc hextended hlong hwrite
  · rfl
  · rfl
  · rfl
  · rfl
  · exact absurd ⟨Bool.false_ne_true, h⟩ hlong
  · rfl

theorem send_buildFrame_short (hopen : 0 ≤ iface.socket) (hwrite : ∀ cf, write cf = true)
    (hdlc : dlc ≤ 8) (h : ¬ canStdIdMax < canId) :
    (iface.send (buildFrame canId bytes dlc) write).sent = true ∧
      (iface.send (buildFrame canId bytes dlc) write).written =
        some (toKernelFrame (buildFrame canId bytes dlc)) := by
  rw [CanInterface.send]
  split_ifs with hclosed hlong hextended hlongId hwritten
  · exact absurd hopen (not_le.mpr hclosed)
  · exact absurd hdlc (UInt8.not_le.mpr hlong)
  · exact absurd hextended.1 Bool.false_ne_true
  · exact absurd hlongId.2 h
  · exact ⟨rfl, rfl⟩
  · exact absurd (hwrite _) hwritten

theorem carries_buildFrame (h : ¬ canStdIdMax < canId) :
    Carries (toKernelFrame (buildFrame canId bytes dlc)) canId bytes dlc := by
  refine ⟨?_, rfl, ?_⟩
  · rw [if_neg h]
    simp [toKernelFrame, buildFrame]
  · intro i hi hlt
    change (copyBytes dlc (buildFrame canId bytes dlc).byteAt)[i] = bytes i
    rw [copyBytes_get dlc _ i hi, if_pos hlt]
    change ((copyBytes dlc bytes)[i]?).getD 0 = bytes i
    rw [Vector.getElem?_eq_getElem hi, Option.getD_some, copyBytes_get dlc bytes i hi, if_pos hlt]

end Interface

variable {R : Type} [NatCast R] [Add R] [Sub R] [Mul R] [Min R] [One R] [LE R] [DecidableLE R]

def sendOn (w : CanWriter R) (iface : CanInterface) (write : KernelFrame → Bool) (canId : UInt32)
    (data : Option (ℕ → UInt8)) (dlc : UInt8) (now : R) : SendResult × Option KernelFrame :=
  let report := w.send ⟨canId, data, dlc, now, fun frame => (iface.send frame write).sent⟩
  (report.result, report.handed.bind (fun frame => (iface.send frame write).written))

/-- A listed command with a token reaches an open bus exactly if its id has 11 bits. -/
theorem command_reaches_bus_iff (ops : List (Op R)) (iface : CanInterface)
    (write : KernelFrame → Bool) (canId : UInt32) (bytes : ℕ → UInt8) (dlc : UInt8) (now : R)
    (hopen : 0 ≤ iface.socket) (hwrite : ∀ cf, write cf = true) (hdlc : dlc ≤ 8)
    (hlisted : ∃ cmd ∈ lastLoaded ops, cmd.canId = canId)
    (htoken : ((run step ({} : CanWriter R) ops).checkRate canId now).1 = true) :
    let w := run step ({} : CanWriter R) ops
    (∃ cf, w.sendOn iface write canId (some bytes) dlc now = (.ok, some cf) ∧
      Carries cf canId bytes dlc) ↔ canId ≤ canStdIdMax := by
  intro w
  let c : SendCall R := ⟨canId, some bytes, dlc, now, fun frame => (iface.send frame write).sent⟩
  have hallowed : w.isAllowed canId = true := (run_isAllowed ops canId).mpr hlisted
  have hsend : w.send c = (w.checkRate canId now).2.transmit (buildFrame canId bytes dlc)
      (fun frame => (iface.send frame write).sent) := by
    obtain ⟨hinvalid, -⟩ | ⟨hblocked, -⟩ | ⟨hlimited, -⟩ | ⟨bytes', hdata, -, -, -, hs⟩ :=
      send_cases w c
    · rcases hinvalid with hdata | hlong
      · cases hdata
      · exact absurd hdlc (UInt8.not_le.mpr hlong)
    · exact absurd (hallowed.symm.trans hblocked) Bool.noConfusion
    · exact absurd (htoken.symm.trans hlimited) Bool.noConfusion
    · cases hdata
      exact hs
  obtain ⟨hframe, hresult⟩ := transmit_handed (w.checkRate canId now).2
    (buildFrame canId bytes dlc) (fun frame => (iface.send frame write).sent)
  have hsendOn : w.sendOn iface write canId (some bytes) dlc now =
      (if (iface.send (buildFrame canId bytes dlc) write).sent then .ok else .canError,
        (iface.send (buildFrame canId bytes dlc) write).written) := by
    change ((w.send c).result, (w.send c).handed.bind _) = _
    rw [hsend, hframe, hresult]
    rfl
  rw [hsendOn]
  constructor
  · rintro ⟨cf, hok, -⟩
    by_contra hlong
    rw [send_buildFrame_long iface write canId bytes dlc (UInt32.not_le.mp hlong)] at hok
    cases (Prod.mk.inj hok).1
  · intro hshort
    have hnot : ¬ canStdIdMax < canId := UInt32.not_lt.mpr hshort
    obtain ⟨hsent, hwritten⟩ :=
      send_buildFrame_short iface write canId bytes dlc hopen hwrite hdlc hnot
    refine ⟨_, ?_, carries_buildFrame canId bytes dlc hnot⟩
    rw [hsent, hwritten]
    rfl

def openSocket : CanInterface := { socket := 3 }

def listed (canId : UInt32) : List (Op ℚ) := [.loadAllowedCommands [{ canId := canId }] 0]

theorem command_reaches_bus_short :
    ∃ cf, (run step ({} : CanWriter ℚ) (listed 0x7E0)).sendOn openSocket (fun _ => true) 0x7E0
        (some (fun i => UInt8.ofNat i)) 8 1 = (.ok, some cf) ∧
      Carries cf 0x7E0 (fun i => UInt8.ofNat i) 8 :=
  (command_reaches_bus_iff (listed 0x7E0) openSocket (fun _ => true) 0x7E0 _ 8 1 (by decide)
    (fun _ => rfl) (by decide) ⟨{ canId := 0x7E0 }, by decide, rfl⟩ (by decide +kernel)).mpr
    (by decide)

/-- A 29-bit id, listed and within the rate. -/
theorem extended_command_rejected :
    ¬ ∀ (ops : List (Op ℚ)) (iface : CanInterface) (write : KernelFrame → Bool) (canId : UInt32)
      (bytes : ℕ → UInt8) (dlc : UInt8) (now : ℚ), canId ≤ canExtIdMax → 0 ≤ iface.socket →
      (∀ cf, write cf = true) → dlc ≤ 8 → (∃ cmd ∈ lastLoaded ops, cmd.canId = canId) →
      ((run step ({} : CanWriter ℚ) ops).checkRate canId now).1 = true →
      ∃ cf, (run step ({} : CanWriter ℚ) ops).sendOn iface write canId (some bytes) dlc now =
        (.ok, some cf) ∧ Carries cf canId bytes dlc := by
  intro hclaim
  obtain ⟨cf, hok, -⟩ := hclaim (listed 0x18DB33F1) openSocket (fun _ => true) 0x18DB33F1
    (fun _ => 0) 8 1 (by decide) (by decide) (fun _ => rfl) (by decide)
    ⟨{ canId := 0x18DB33F1 }, by decide, rfl⟩ (by decide +kernel)
  have hresult : ((run step ({} : CanWriter ℚ) (listed 0x18DB33F1)).sendOn openSocket
      (fun _ => true) 0x18DB33F1 (some (fun _ => 0)) 8 1).1 = .ok := congrArg Prod.fst hok
  exact absurd hresult (by decide +kernel)

end SpeeduinoDash.CanWriter
