import SpeeduinoDash.EngineSummary
import SpeeduinoDash.Lib.Keyed
import SpeeduinoDash.SignalDecoding

set_option autoImplicit false

/-!
# The CAN parser

The multimap from CAN ids to signals is a list of signals. The library promises no order for
the signals of one id, so the order is an argument of the load; it matters only where two of
them share a name.
-/
namespace SpeeduinoDash
open Lib.Keyed

structure ParsedSignal (R : Type) where
  name : String
  value : R
  timestampUs : UInt32
  valid : Bool

structure CanParser (R : Type) where
  signalsByCanId : List (CanSignalDef R) := []
  values : String → Option (ParsedSignal R) := fun _ => none
  engineData : EngineData := {}
  lastUpdateTimestamp : UInt32 := 0

/-- A table and the order in which the multimap comes to keep its signals. -/
structure SignalTable (R : Type) where
  signals : List (CanSignalDef R)
  stored : List (CanSignalDef R)
  perm : stored.Perm signals

def SignalTable.inOrder {R : Type} (signals : List (CanSignalDef R)) : SignalTable R :=
  ⟨signals, signals, List.Perm.refl signals⟩

def canMaxDlc : UInt8 := 64

namespace CanParser

variable {R : Type}

def getEngineData (p : CanParser R) : EngineData := p.engineData

def getSignalValue (p : CanParser R) (name : String) : Option R :=
  (p.values name).bind (fun parsed => if parsed.valid then some parsed.value else none)

def isDataFresh (p : CanParser R) (timeoutMs : UInt32) (clockMs : ℕ) : Bool :=
  getMonotonicMs clockMs - p.lastUpdateTimestamp < timeoutMs

variable [OfScientific R]

def loadSignals (p : CanParser R) (table : SignalTable R) : CanParser R :=
  { p with
    signalsByCanId := table.stored
    values := table.signals.foldl (fun m signal => assign m signal.name ⟨signal.name, 0.0, 0, false⟩)
      (fun _ => none) }

def reset (p : CanParser R) : CanParser R :=
  { p with
    values := fun name => (p.values name).map
      (fun parsed => { parsed with value := 0.0, valid := false })
    engineData := {}
    lastUpdateTimestamp := 0 }

variable [Add R] [Mul R] [NatCast R] [IntCast R]

def equalRange (p : CanParser R) (canId : UInt32) : List (CanSignalDef R) :=
  p.signalsByCanId.filter (fun signal => signal.canId == canId)

def store (values : String → Option (ParsedSignal R)) (frame : CanFrame)
    (signal : CanSignalDef R) : String → Option (ParsedSignal R) :=
  assign values signal.name
    ⟨signal.name, decodeSignal frame signal, frame.timestampUs, true⟩

variable [Neg R] [LT R] [DecidableLT R] [Truncate R]

def parseFrame (p : CanParser R) (frame : CanFrame) (clockMs : ℕ) : CanParser R :=
  if frame.dlc > canMaxDlc then p
  else
    let p' := { p with
      values := (p.equalRange frame.id).foldl (fun values signal => store values frame signal)
        p.values
      lastUpdateTimestamp := getMonotonicMs clockMs }
    { p' with engineData := updateEngineData p'.getSignalValue p'.lastUpdateTimestamp }

inductive Op (R : Type) where
  | loadSignals (table : SignalTable R)
  | parseFrame (frame : CanFrame) (clockMs : ℕ)
  | reset

def step (p : CanParser R) : Op R → CanParser R
  | .loadSignals table => p.loadSignals table
  | .parseFrame frame clockMs => p.parseFrame frame clockMs
  | .reset => p.reset

end CanParser

end SpeeduinoDash
