import Mathlib.Algebra.Group.Nat.Defs
import Mathlib.Data.Int.Notation
import Mathlib.Tactic.SplitIfs
import SpeeduinoDash.Config

set_option autoImplicit false

/-!
# CAN frames and the socket interface

`KernelFrame` is `struct can_frame`, `CanFrame` the frame the services work on. The outcome of
a system call is an argument: what `write` accepts, what `read` hands over.
-/
namespace SpeeduinoDash

def canEffFlag : UInt32 := 0x80000000
def canRtrFlag : UInt32 := 0x40000000
def canErrFlag : UInt32 := 0x20000000
def canEffMask : UInt32 := 0x1FFFFFFF
def canClassicMaxDlc : UInt8 := 8
def canStdIdMax : UInt32 := 0x7FF
def canExtIdMax : UInt32 := 0x1FFFFFFF

theorem canEffFlag_eq : canEffFlag = UInt32.ofNat (2 ^ 31) := by decide

theorem canRtrFlag_eq : canRtrFlag = UInt32.ofNat (2 ^ 30) := by decide

theorem canErrFlag_eq : canErrFlag = UInt32.ofNat (2 ^ 29) := by decide

theorem canEffMask_eq : canEffMask = UInt32.ofNat (2 ^ 29 - 1) := by decide

def getMonotonicMs (clockMs : ℕ) : UInt32 := UInt32.ofNat clockMs

def copyBytes (n : UInt8) (src : ℕ → UInt8) : Vector UInt8 8 :=
  Vector.ofFn (fun i => if i.val < n.toNat then src i.val else 0)

theorem copyBytes_get (n : UInt8) (src : ℕ → UInt8) (i : ℕ) (hi : i < 8) :
    (copyBytes n src)[i] = if i < n.toNat then src i else 0 := by
  simp [copyBytes]

structure CanFrame where
  id : UInt32 := 0
  dlc : UInt8 := 0
  data : Vector UInt8 8 := Vector.replicate 8 0
  timestampUs : UInt32 := 0
  isExtended : Bool := false
  isRtr : Bool := false
  isError : Bool := false
deriving DecidableEq

/-- A read past the array (undefined in the code) gives 0. -/
def CanFrame.byteAt (f : CanFrame) (i : ℕ) : UInt8 := f.data[i]?.getD 0

structure KernelFrame where
  canId : UInt32
  canDlc : UInt8
  data : Vector UInt8 8
deriving DecidableEq

def KernelFrame.byteAt (cf : KernelFrame) (i : ℕ) : UInt8 := cf.data[i]?.getD 0

structure CanInterface where
  socket : ℤ := -1
  rxCount : UInt32 := 0
  txCount : UInt32 := 0
  errorCount : UInt32 := 0
  lastRxTimestamp : UInt32 := 0

namespace CanInterface

def isConnected (iface : CanInterface) : Bool := 0 ≤ iface.socket

def toKernelFrame (frame : CanFrame) : KernelFrame where
  canId := frame.id ||| (if frame.isExtended then canEffFlag else 0) |||
    (if frame.isRtr then canRtrFlag else 0)
  canDlc := frame.dlc
  data := copyBytes frame.dlc frame.byteAt

structure SendReport where
  sent : Bool
  written : Option KernelFrame
  iface : CanInterface

def rejected (iface : CanInterface) : SendReport :=
  ⟨false, none, { iface with errorCount := iface.errorCount + 1 }⟩

/-- `write` is what the kernel answers: whether it takes the whole frame. -/
def send (iface : CanInterface) (frame : CanFrame) (write : KernelFrame → Bool) : SendReport :=
  if iface.socket < 0 then ⟨false, none, iface⟩
  else if frame.dlc > canClassicMaxDlc then rejected iface
  else if frame.isExtended ∧ frame.id > canExtIdMax then rejected iface
  else if ¬ frame.isExtended ∧ frame.id > canStdIdMax then rejected iface
  else if write (toKernelFrame frame) then
    ⟨true, some (toKernelFrame frame), { iface with txCount := iface.txCount + 1 }⟩
  else rejected iface

def fromKernelFrame (cf : KernelFrame) (clockMs : ℕ) : CanFrame :=
  let safeDlc := if cf.canDlc > canClassicMaxDlc then canClassicMaxDlc else cf.canDlc
  { id := cf.canId &&& canEffMask
    isExtended := cf.canId &&& canEffFlag != 0
    isRtr := cf.canId &&& canRtrFlag != 0
    isError := cf.canId &&& canErrFlag != 0
    dlc := safeDlc
    data := copyBytes safeDlc cf.byteAt
    timestampUs := getMonotonicMs clockMs * 1000 }

inductive ReadOutcome where
  | noData
  | shortRead
  | failed
  | frame (cf : KernelFrame)

def receive (iface : CanInterface) (outcome : ReadOutcome) (clockMs : ℕ) :
    Option CanFrame × CanInterface :=
  if iface.socket < 0 then (none, iface)
  else match outcome with
    | .noData => (none, iface)
    | .shortRead => (none, iface)
    | .failed => (none, { iface with errorCount := iface.errorCount + 1 })
    | .frame cf =>
      (some (fromKernelFrame cf clockMs),
        { iface with rxCount := iface.rxCount + 1, lastRxTimestamp := getMonotonicMs clockMs })

theorem fromKernelFrame_dlc (cf : KernelFrame) (clockMs : ℕ) :
    (fromKernelFrame cf clockMs).dlc ≤ 8 := by
  change (if cf.canDlc > canClassicMaxDlc then canClassicMaxDlc else cf.canDlc) ≤ 8
  split_ifs with h
  · exact UInt8.le_refl 8
  · exact UInt8.not_lt.mp h

end CanInterface

end SpeeduinoDash
