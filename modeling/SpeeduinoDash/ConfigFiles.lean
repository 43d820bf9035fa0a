import Mathlib.Algebra.Group.Nat.Defs
import Mathlib.Data.Rat.Defs
import SpeeduinoDash.ConfigLoader

set_option autoImplicit false

/-!
# The configuration files

`R` is the number type of scale factors and offsets (`double` in the code).
-/
namespace SpeeduinoDash
open Lib.Journal

/-- What the loader asks of `yaml-cpp`; nothing where it throws. -/
structure Yaml (Node R : Type) where
  /-- `node[key]`, no node where the key is missing. -/
  get : Node → String → Option (Option Node)
  elements : Node → List Node
  isNull : Node → Bool
  asString : Node → Option String
  asBool : Node → Option Bool
  asUInt8 : Node → Option UInt8
  asUInt32 : Node → Option UInt32
  asDouble : Node → Option R

def ulongMax : ℕ := 2 ^ 64 - 1

def hexDigit (c : Char) : Option ℕ :=
  if c.isDigit then some (c.toNat - '0'.toNat)
  else if 'a' ≤ c ∧ c ≤ 'f' then some (c.toNat - 'a'.toNat + 10)
  else if 'A' ≤ c ∧ c ≤ 'F' then some (c.toNat - 'A'.toNat + 10)
  else none

def stoulHex : List Char → ℕ → ℕ
  | [], value => value
  | c :: cs, value =>
    match hexDigit c with
    | some digit => stoulHex cs (16 * value + digit)
    | none => value

/-- The digits after `0x`. A value that `stoul` cannot hold makes it throw. -/
def parseHex (digits : List Char) : UInt32 :=
  if digits = [] then 0
  else
    let parsed := stoulHex digits 0
    if ulongMax < parsed then 0
    else if 0xFFFFFFFF < parsed then 0xFFFFFFFF
    else UInt32.ofNat parsed

section Signals

variable {R : Type} [OfScientific R] [Neg R]

def loadHaltechSignals : List (CanSignalDef R) :=
  [⟨"rpm", 0x360, 0, 0, 16, true, false, 1.0, 0.0, "rpm"⟩,
    ⟨"map", 0x360, 2, 0, 16, true, false, 0.1, 0.0, "kPa"⟩,
    ⟨"tps", 0x360, 4, 0, 16, true, false, 0.1, 0.0, "%"⟩,
    ⟨"fuel_pressure", 0x361, 0, 0, 16, true, false, 0.1, 0.0, "kPa"⟩,
    ⟨"oil_pressure", 0x361, 2, 0, 16, true, false, 0.1, 0.0, "kPa"⟩,
    ⟨"injector_duty", 0x362, 0, 0, 16, true, false, 0.1, 0.0, "%"⟩,
    ⟨"ignition_advance", 0x362, 4, 0, 16, true, true, 0.1, 0.0, "deg"⟩,
    ⟨"lambda1", 0x368, 0, 0, 16, true, false, 0.001, 0.0, ""⟩,
    ⟨"lambda2", 0x368, 2, 0, 16, true, false, 0.001, 0.0, ""⟩,
    ⟨"vehicle_speed", 0x370, 0, 0, 16, true, false, 0.1, 0.0, "km/h"⟩,
    ⟨"gear", 0x370, 3, 0, 8, true, false, 1.0, 0.0, ""⟩,
    ⟨"coolant_temp", 0x3E0, 0, 0, 16, true, false, 0.1, -273.0, "C"⟩,
    ⟨"intake_temp", 0x3E0, 2, 0, 16, true, false, 0.1, -273.0, "C"⟩,
    ⟨"fuel_temp", 0x3E0, 4, 0, 16, true, false, 0.1, -273.0, "C"⟩]

def loadBMWSignals : List (CanSignalDef R) :=
  [⟨"rpm", 0x316, 2, 0, 16, false, false, 0.15625, 0.0, "rpm"⟩,
    ⟨"torque", 0x316, 1, 0, 8, true, false, 1.0, 0.0, "%"⟩,
    ⟨"coolant_temp", 0x329, 1, 0, 8, true, false, 0.75, -48.373, "C"⟩,
    ⟨"baro", 0x329, 2, 0, 8, true, false, 1.0, 0.0, "kPa"⟩,
    ⟨"tps", 0x329, 5, 0, 8, true, false, 0.392157, 0.0, "%"⟩,
    ⟨"fuel_consumption", 0x545, 1, 0, 16, false, false, 0.01, 0.0, "L/h"⟩,
    ⟨"oil_temp", 0x545, 4, 0, 8, true, false, 0.75, -48.0, "C"⟩]

end Signals

def presetEntries (R : Type) (preset : String) : List (ConfigEntry R) :=
  if preset = "gol_quadrado" ∨ preset = "classic_vw" then
    [.set .reverseDetectionMode "gpio", .set .reverseCanEnabled false,
      .set .reverseGpioEnabled true, .set .reverseGpioLine 17, .set .reverseGpioActiveLow true,
      .set .debounceMs 100]
  else if preset = "speeduino_can" then
    [.set .reverseDetectionMode "can", .set .reverseCanEnabled true,
      .set .reverseGpioEnabled false, .set .reverseCanId 0x370, .set .reverseByteIndex 3,
      .set .reverseBitMask 0x80]
  else if preset = "haltech" then
    [.set .reverseDetectionMode "can", .set .reverseCanEnabled true,
      .set .reverseGpioEnabled false, .set .reverseCanId 0x360, .set .reverseByteIndex 4,
      .set .reverseBitMask 0x02]
  else []

theorem replay_presetEntries {R : Type} (c : ConfigLoader R) (preset : String) :
    (ConfigLoader.ledger R).replay c (presetEntries R preset) =
      { c with reverseConfig := c.reverseConfig.applyPreset preset } := by
  unfold presetEntries ReverseConfig.applyPreset
  split_ifs <;> simp only [ConfigLoader.replay_set, ConfigLoader.assign, Ledger.replay_nil]

namespace Yaml

variable {Node R : Type} (y : Yaml Node R)

section Nodes

variable {α : Type}

/-- `if (node[key])`, with the statements inside. -/
def ifPresent (node : Node) (key : String) (body : Node → List (Option (ConfigEntry R))) :
    List (Option (ConfigEntry R)) :=
  match y.get node key with
  | none => [none]
  | some none => []
  | some (some value) => body value

/-- `if (node[key]) f = node[key].as<T>()`. -/
def assign (node : Node) (key : String) (f : Setting) (as : Node → Option f.Value) :
    List (Option (ConfigEntry R)) :=
  y.ifPresent node key (fun value => [(as value).map (.set f)])

/-- `node[key].as<T>()`. -/
def required (node : Node) (key : String) (as : Node → Option α) : Option α := do
  let value ← y.get node key
  as (← value)

/-- `if (node[key]) x = node[key].as<T>()`. -/
def optional (node : Node) (key : String) (as : Node → Option α) (x : α) : Option α := do
  match ← y.get node key with
  | none => some x
  | some value => as value

def parseHexOrDec (node : Option Node) : UInt32 :=
  match node with
  | none => 0
  | some node =>
    if y.isNull node then 0
    else
      match (y.asString node).map String.toList with
      | none => 0
      | some [] => 0
      | some ('0' :: 'x' :: digits) => parseHex digits
      | some ('0' :: 'X' :: digits) => parseHex digits
      | some _ => (y.asUInt32 node).getD 0

def hexOrDec (node : Node) (key : String) : Option UInt32 := (y.get node key).map y.parseHexOrDec

end Nodes

def reverseStatements (rev : Node) : List (Option (ConfigEntry R)) :=
  y.ifPresent rev "preset" (fun node =>
    match y.asString node with
    | none => [none]
    | some preset => (presetEntries R preset).map some) ++
  y.assign rev "detection_mode" .reverseDetectionMode y.asString ++
  y.assign rev "can_enabled" .reverseCanEnabled y.asBool ++
  y.assign rev "can_id" .reverseCanId (fun node => some (y.parseHexOrDec node)) ++
  y.assign rev "byte_index" .reverseByteIndex y.asUInt8 ++
  y.assign rev "bit_mask" .reverseBitMask (fun node => some (y.parseHexOrDec node).toUInt8) ++
  y.assign rev "expected_value" .reverseExpectedValue
    (fun node => some (y.parseHexOrDec node).toUInt8) ++
  y.assign rev "gpio_enabled" .reverseGpioEnabled y.asBool ++
  y.assign rev "gpio_chip" .reverseGpioChip y.asString ++
  y.assign rev "gpio_line" .reverseGpioLine y.asUInt32 ++
  y.assign rev "gpio_active_low" .reverseGpioActiveLow y.asBool ++
  y.assign rev "debounce_ms" .debounceMs y.asUInt32

def command (cmd : Node) : Option CanCommandDef := do
  let canId ← y.hexOrDec cmd "id"
  let rateLimitHz ← y.optional cmd "rate_limit" y.asUInt32 10
  let description ← y.optional cmd "description" y.asString ""
  return { canId, rateLimitHz, description }

def systemStatements (config : Node) : List (Option (ConfigEntry R)) :=
  y.ifPresent config "can" (fun can =>
    y.assign can "interface" .canInterface y.asString ++
    y.assign can "bitrate" .canBitrate y.asUInt32 ++
    y.assign can "protocol" .canProtocol y.asString ++
    y.assign can "timeout_ms" .canTimeoutMs y.asUInt32) ++
  y.ifPresent config "zmq" (fun zmq =>
    y.assign zmq "publish_rate_hz" .zmqPublishRateHz y.asUInt32) ++
  y.ifPresent config "camera" (fun cam =>
    y.assign cam "device" .cameraDevice y.asString ++
    y.assign cam "width" .cameraWidth y.asUInt32 ++
    y.assign cam "height" .cameraHeight y.asUInt32 ++
    y.assign cam "fps" .cameraFps y.asUInt32) ++
  y.ifPresent config "openauto" (fun oa => y.assign oa "path" .openautoPath y.asString) ++
  y.ifPresent config "reverse" y.reverseStatements ++
  y.ifPresent config "allowed_commands" (fun commands =>
    (y.elements commands).map (fun cmd => (y.command cmd).map (.append .allowedCommands)))

def button (btn : Node) : Option SteeringButtonDef := do
  let buttonId ← y.required btn "id" y.asUInt8
  let canId ← y.hexOrDec btn "can_id"
  let byteIndex ← y.required btn "byte_index" y.asUInt8
  let bitMask ← y.hexOrDec btn "bit_mask"
  let action ← y.required btn "action" y.asString
  return { buttonId, canId, byteIndex, bitMask := bitMask.toUInt8, action }

def steeringStatements (config : Node) : List (Option (ConfigEntry R)) :=
  y.ifPresent config "buttons" (fun buttons =>
    (y.elements buttons).map (fun btn => (y.button btn).map (.append .steeringButtons)))

section Signals

variable [OfScientific R] [Neg R]

def signal (sig : Node) : Option (CanSignalDef R) := do
  let name ← y.required sig "name" y.asString
  let canId ← y.hexOrDec sig "can_id"
  let startByte ← y.required sig "start_byte" y.asUInt8
  let startBit ← y.optional sig "start_bit" y.asUInt8 0
  let lengthBits ← y.required sig "length_bits" y.asUInt8
  let isBigEndian ← y.optional sig "big_endian" y.asBool false
  let isSigned ← y.optional sig "signed" y.asBool false
  let scale ← y.optional sig "scale" y.asDouble 1.0
  let offset ← y.optional sig "offset" y.asDouble 0.0
  let unit ← y.optional sig "unit" y.asString ""
  return {
    name, canId, startByte, startBit, lengthBits, isBigEndian, isSigned, scale, offset, unit }

def signalsStatements (config : Node) : List (Option (ConfigEntry R)) :=
  y.ifPresent config "use_builtin" (fun node =>
    match y.asString node with
    | none => [none]
    | some "haltech" => loadHaltechSignals.map (fun sig => some (.append .signals sig))
    | some "bmw" => loadBMWSignals.map (fun sig => some (.append .signals sig))
    | some _ => []) ++
  y.ifPresent config "signals" (fun signals =>
    (y.elements signals).map (fun sig => (y.signal sig).map (.append .signals)))

end Signals

end Yaml

inductive FileKind where
  | system
  | signals
  | steering
deriving DecidableEq

namespace ConfigLoader

variable {Node R : Type} [OfScientific R] [Neg R] (y : Yaml Node R)

/-- A file that `LoadFile` throws on has no content. -/
def statements (kind : FileKind) (file : Option Node) : List (Option (ConfigEntry R)) :=
  match file with
  | none => [none]
  | some config =>
    match kind with
    | .system => y.systemStatements config
    | .signals => y.signalsStatements config
    | .steering => y.steeringStatements config

def load (kind : FileKind) (c : ConfigLoader R) (file : Option Node) : ConfigLoader R × Bool :=
  (ledger R).attempt c (statements y kind file)

def loadSystemConfig (c : ConfigLoader R) (file : Option Node) : ConfigLoader R × Bool :=
  load y .system c file

def loadSignalsConfig (c : ConfigLoader R) (file : Option Node) : ConfigLoader R × Bool :=
  load y .signals c file

def loadSteeringConfig (c : ConfigLoader R) (file : Option Node) : ConfigLoader R × Bool :=
  load y .steering c file

structure Directory (Node : Type) where
  system : Option (Option Node)
  canSignals : Option (Option Node)
  steeringWheel : Option (Option Node)

def loadFromDirectory (c : ConfigLoader R) (dir : Directory Node) : ConfigLoader R × Bool :=
  let system := dir.system.elim (c, true) (loadSystemConfig y c)
  let signals :=
    dir.canSignals.elim
      ({ system.1 with signals := system.1.signals ++ loadHaltechSignals }, true)
      (loadSignalsConfig y system.1)
  let steering := dir.steeringWheel.elim (signals.1, true) (loadSteeringConfig y signals.1)
  (steering.1, system.2 && signals.2 && steering.2)

end ConfigLoader

/-- A document without tags, anchors and nulls. -/
inductive YamlTree where
  | scalar (text : String)
  | sequence (items : List YamlTree)
  | map (pairs : List (String × YamlTree))

namespace YamlTree

def decimal (limit : ℕ) : YamlTree → Option ℕ
  | .scalar text =>
    let value := text.toList.foldl (fun value c => 10 * value + (c.toNat - '0'.toNat)) 0
    if text.toList ≠ [] ∧ text.toList.all Char.isDigit ∧ value < limit then some value else none
  | _ => none

def yaml : Yaml YamlTree ℚ where
  get node key :=
    match node with
    | .scalar _ => none
    | .sequence _ => some none
    | .map pairs => some (pairs.lookup key)
  elements
    | .sequence items => items
    | _ => []
  isNull _ := false
  asString
    | .scalar text => some text
    | _ => none
  asBool
    | .scalar "true" => some true
    | .scalar "false" => some false
    | _ => none
  asUInt8 node := (node.decimal (2 ^ 8)).map UInt8.ofNat
  asUInt32 node := (node.decimal (2 ^ 32)).map UInt32.ofNat
  asDouble node := (node.decimal (2 ^ 53)).map Nat.cast

end YamlTree

end SpeeduinoDash
