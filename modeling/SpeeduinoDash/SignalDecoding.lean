import SpeeduinoDash.CanInterface
import SpeeduinoDash.Config

set_option autoImplicit false

/-!
# Decoding one signal of a frame

Raw values are 64-bit words; a shift by 64 is a shift by 0, as the targets compute it. `R` is
the number type of decoded values.
-/
namespace SpeeduinoDash

def bigEndianBytes (frame : CanFrame) (startByte bytesNeeded : ℕ) : List UInt8 :=
  ((List.range bytesNeeded).takeWhile (fun i => startByte + i < frame.dlc.toNat)).map
    (fun i => frame.byteAt (startByte + i))

/-- A little-endian signal starts from its last byte and skips those outside the frame. -/
def littleEndianBytes (frame : CanFrame) (startByte bytesNeeded : ℕ) : List UInt8 :=
  ((List.range bytesNeeded).reverse.filter (fun i => startByte + i < frame.dlc.toNat)).map
    (fun i => frame.byteAt (startByte + i))

def shiftIn (bytes : List UInt8) : UInt64 :=
  bytes.foldl (fun result byte => (result <<< 8) ||| byte.toUInt64) 0

variable {R : Type}

def extractRawValue (frame : CanFrame) (signal : CanSignalDef R) : UInt64 :=
  if signal.startByte ≥ frame.dlc then 0
  else if signal.lengthBits = 0 ∨ signal.lengthBits > 64 then 0
  else if signal.startBit ≥ 8 then 0
  else
    let bytesNeeded := (signal.lengthBits.toNat + 7) / 8
    if bytesNeeded > 8 ∨ signal.startByte.toNat > 255 - bytesNeeded then 0
    else
      let result := shiftIn (if signal.isBigEndian
        then bigEndianBytes frame signal.startByte.toNat bytesNeeded
        else littleEndianBytes frame signal.startByte.toNat bytesNeeded)
      let shifted := if signal.startBit > 0 then result >>> signal.startBit.toUInt64 else result
      let mask := ((1 : UInt64) <<< signal.lengthBits.toUInt64) - 1
      shifted &&& mask

def payloadByte (frame : CanFrame) (i : ℕ) : ℕ :=
  if i < frame.dlc.toNat then (frame.byteAt i).toNat else 0

variable [Add R] [Mul R] [NatCast R] [IntCast R]

def applyScaling (raw : UInt64) (signal : CanSignalDef R) : R :=
  let value : R :=
    if signal.isSigned then
      let signBit := (1 : UInt64) <<< (signal.lengthBits.toUInt64 - 1)
      let extended := if raw &&& signBit ≠ 0
        then raw ||| ~~~(((1 : UInt64) <<< signal.lengthBits.toUInt64) - 1) else raw
      (extended.toInt64.toInt : R)
    else (raw.toNat : R)
  value * signal.scale + signal.offset

def decodeSignal (frame : CanFrame) (signal : CanSignalDef R) : R :=
  applyScaling (extractRawValue frame signal) signal

end SpeeduinoDash
