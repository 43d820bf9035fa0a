import SpeeduinoDash.CanInterface
import SpeeduinoDash.Lib.ByteOrder

set_option autoImplicit false

/-!
# Frames written and read back

The identifier and the flags of a frame share one word of the kernel's frame.
-/
namespace SpeeduinoDash
open Lib.ByteOrder

/-- What `send` puts on the bus is the same for both frames, and the second has nothing else in its
    data. -/
structure Recovered (frame frame' : CanFrame) : Prop where
  id : frame'.id = frame.id
  isExtended : frame'.isExtended = frame.isExtended
  isRtr : frame'.isRtr = frame.isRtr
  isError : frame'.isError = false
  dlc : frame'.dlc = frame.dlc
  bytes : ∀ i, i < frame.dlc.toNat → frame'.byteAt i = frame.byteAt i
  rest : ∀ i, frame.dlc.toNat ≤ i → frame'.byteAt i = 0

structure SameOnBus (f g : CanFrame) : Prop where
  id : f.id = g.id
  isExtended : f.isExtended = g.isExtended
  isRtr : f.isRtr = g.isRtr
  dlc : f.dlc = g.dlc
  bytes : ∀ i, i < f.dlc.toNat → f.byteAt i = g.byteAt i

theorem Recovered.sameOnBus {f g frame' : CanFrame} (hf : Recovered f frame')
    (hg : Recovered g frame') : SameOnBus f g := by
  have hdlc : f.dlc = g.dlc := hf.dlc.symm.trans hg.dlc
  refine ⟨hf.id.symm.trans hg.id, hf.isExtended.symm.trans hg.isExtended,
    hf.isRtr.symm.trans hg.isRtr, hdlc, ?_⟩
  intro i hi
  exact (hf.bytes i hi).symm.trans (hg.bytes i (by rwa [← hdlc]))

namespace CanInterface

section Word

theorem toNat_canId {frame : CanFrame} (hid : frame.id.toNat < 2 ^ 29) :
    (toKernelFrame frame).canId.toNat = frame.id.toNat +
      (if frame.isRtr then 2 ^ 30 else 0) + if frame.isExtended then 2 ^ 31 else 0 := by
  have hor : (frame.id ||| UInt32.ofNat (2 ^ 30)).toNat = frame.id.toNat + 2 ^ 30 :=
    toNat_or_flag (by omega) (by omega)
  unfold toKernelFrame
  dsimp only
  rw [canEffFlag_eq, canRtrFlag_eq, UInt32.or_assoc, UInt32.or_comm (if frame.isExtended then _ else _),
    ← UInt32.or_assoc]
  cases frame.isRtr <;> cases frame.isExtended
  · simp
  · simpa using toNat_or_flag (n := 31) (by omega) (show frame.id.toNat < 2 ^ 31 by omega)
  · simpa using hor
  · have hboth := toNat_or_flag (n := 31) (by omega)
      (show (frame.id ||| UInt32.ofNat (2 ^ 30)).toNat < 2 ^ 31 by omega)
    rw [hor] at hboth
    exact hboth

theorem flag_eq_iff (x : UInt32) (n : ℕ) (h : n < 32) (b : Bool) :
    (x &&& UInt32.ofNat (2 ^ n) != 0) = b ↔ x.toNat / 2 ^ n % 2 = if b then 1 else 0 := by
  have hclear := flag_clear_iff x n h
  cases b with
  | false => simpa using hclear
  | true =>
    rw [← Bool.not_eq_false, hclear]
    simp only [if_true]
    omega

end Word

theorem byteAt_copyBytes {frame : CanFrame} {n : UInt8} {src : ℕ → UInt8}
    (hdata : frame.data = copyBytes n src) (hn : n.toNat ≤ 8) (i : ℕ) :
    frame.byteAt i = if i < n.toNat then src i else 0 := by
  rw [CanFrame.byteAt, hdata]
  by_cases hi : i < 8
  · rw [Vector.getElem?_eq_getElem hi, Option.getD_some, copyBytes_get n src i hi]
  · rw [Vector.getElem?_eq_none (by omega), Option.getD_none, if_neg (by omega)]

theorem recovered {frame : CanFrame} (hid : frame.id.toNat < 2 ^ 29) (hdlc : frame.dlc.toNat ≤ 8)
    (clockMs : ℕ) : Recovered frame (fromKernelFrame (toKernelFrame frame) clockMs) := by
  have hword := toNat_canId hid
  have hsafe : ¬ (toKernelFrame frame).canDlc > canClassicMaxDlc :=
    UInt8.not_lt.mpr (UInt8.le_iff_toNat_le.mpr hdlc)
  have hlength : (fromKernelFrame (toKernelFrame frame) clockMs).dlc = frame.dlc := if_neg hsafe
  have hbytes : ∀ i, (fromKernelFrame (toKernelFrame frame) clockMs).byteAt i =
      if i < frame.dlc.toNat then frame.byteAt i else 0 := by
    intro i
    have hdata : (fromKernelFrame (toKernelFrame frame) clockMs).data =
        copyBytes (fromKernelFrame (toKernelFrame frame) clockMs).dlc
          (toKernelFrame frame).byteAt := rfl
    rw [byteAt_copyBytes hdata (by rwa [hlength]), hlength]
    split_ifs with hi
    · have hsent : (toKernelFrame frame).byteAt i =
          ({ data := (toKernelFrame frame).data } : CanFrame).byteAt i := rfl
      rw [hsent, byteAt_copyBytes rfl hdlc, if_pos hi]
    · rfl
  constructor
  · apply UInt32.toNat_inj.mp
    change ((toKernelFrame frame).canId &&& canEffMask).toNat = _
    rw [canEffMask_eq, toNat_and_mask _ 29 (by omega), hword]
    split_ifs <;> omega
  · change ((toKernelFrame frame).canId &&& canEffFlag != 0) = _
    rw [canEffFlag_eq, flag_eq_iff _ 31 (by omega), hword]
    split_ifs <;> omega
  · change ((toKernelFrame frame).canId &&& canRtrFlag != 0) = _
    rw [canRtrFlag_eq, flag_eq_iff _ 30 (by omega), hword]
    split_ifs <;> omega
  · change ((toKernelFrame frame).canId &&& canErrFlag != 0) = _
    rw [canErrFlag_eq, flag_eq_iff _ 29 (by omega), hword, if_neg Bool.false_ne_true]
    clear hword
    split_ifs <;> omega
  · exact hlength
  · intro i hi
    rw [hbytes, if_pos hi]
  · intro i hi
    rw [hbytes, if_neg (by omega)]

theorem send_accepted {iface : CanInterface} {frame : CanFrame} {write : KernelFrame → Bool}
    (h : (iface.send frame write).sent = true) :
    (iface.send frame write).written = some (toKernelFrame frame) ∧ frame.dlc.toNat ≤ 8 ∧
      frame.id.toNat < 2 ^ 29 := by
  unfold send at h ⊢
  split_ifs at h ⊢ with hsocket hdlc hext hstd hwrite
  · exact absurd h Bool.false_ne_true
  · exact absurd h Bool.false_ne_true
  · exact absurd h Bool.false_ne_true
  · refine ⟨rfl, UInt8.not_lt.mp hdlc, ?_⟩
    cases hext' : frame.isExtended with
    | true =>
      have hle : frame.id.toNat ≤ 0x1FFFFFFF := UInt32.not_lt.mp (fun hgt => hext ⟨hext', hgt⟩)
      omega
    | false =>
      have hle : frame.id.toNat ≤ 0x7FF :=
        UInt32.not_lt.mp (fun hgt => hstd ⟨by simp [hext'], hgt⟩)
      omega
  · exact absurd h Bool.false_ne_true

/-- An accepted frame comes back from the bus, and no two that differ there are written alike. -/
theorem receive_send :
    (∀ (iface : CanInterface) (frame : CanFrame) (write : KernelFrame → Bool),
      (iface.send frame write).sent = true → ∃ cf, (iface.send frame write).written = some cf ∧
        ∀ (iface' : CanInterface) (clockMs : ℕ), iface'.isConnected = true →
          ∃ frame', (iface'.receive (.frame cf) clockMs).1 = some frame' ∧
            Recovered frame frame') ∧
    ∀ (iface iface' : CanInterface) (f g : CanFrame) (write write' : KernelFrame → Bool),
      (iface.send f write).sent = true → (iface'.send g write').sent = true →
        ¬ SameOnBus f g → (iface.send f write).written ≠ (iface'.send g write').written := by
  constructor
  · intro iface frame write hsent
    obtain ⟨hwritten, hdlc, hid⟩ := send_accepted hsent
    refine ⟨_, hwritten, ?_⟩
    intro iface' clockMs hconnected
    have hopen : ¬ iface'.socket < 0 := not_lt.mpr (of_decide_eq_true hconnected)
    refine ⟨fromKernelFrame (toKernelFrame frame) clockMs, ?_, recovered hid hdlc clockMs⟩
    rw [receive, if_neg hopen]
  · intro iface iface' f g write write' hf hg hdiffer hsame
    obtain ⟨hwritten, hdlc, hid⟩ := send_accepted hf
    obtain ⟨hwritten', hdlc', hid'⟩ := send_accepted hg
    have hword : toKernelFrame f = toKernelFrame g := by
      rw [hwritten, hwritten'] at hsame
      exact Option.some.inj hsame
    have hback := recovered hid hdlc 0
    rw [hword] at hback
    exact hdiffer (hback.sameOnBus (recovered hid' hdlc' 0))

def connected : CanInterface := { socket := 3 }

def extendedData : CanFrame :=
  { id := 0x370, dlc := 2, data := #v[1, 2, 3, 0, 0, 0, 0, 0], isExtended := true }

def standardData : CanFrame := { extendedData with isExtended := false }

theorem receive_send_formats :
    (∃ cf, (connected.send extendedData (fun _ => true)).written = some cf ∧
      ∃ frame', (connected.receive (.frame cf) 0).1 = some frame' ∧
        Recovered extendedData frame') ∧
    (connected.send extendedData (fun _ => true)).written ≠
      (connected.send standardData (fun _ => true)).written := by
  obtain ⟨hback, hdiffer⟩ := receive_send
  constructor
  · obtain ⟨cf, hwritten, hreceive⟩ :=
      hback connected extendedData (fun _ => true) (by decide)
    exact ⟨cf, hwritten, hreceive connected 0 rfl⟩
  · exact hdiffer connected connected extendedData standardData (fun _ => true) (fun _ => true)
      (by decide) (by decide) (fun h => absurd h.isExtended (by decide))

end CanInterface

end SpeeduinoDash
