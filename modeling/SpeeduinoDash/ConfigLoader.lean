import SpeeduinoDash.Config
import SpeeduinoDash.Lib.Journal

set_option autoImplicit false

/-!
# The configuration loader

A load runs its statements in order, and an exception ends it. What a statement stores does not
depend on what was stored before, so the statements of a file are a list: one that throws is
`none`.
-/
namespace SpeeduinoDash
open Lib.Journal

inductive Setting where
  | canInterface
  | canBitrate
  | canProtocol
  | zmqPublishRateHz
  | cameraDevice
  | cameraWidth
  | cameraHeight
  | cameraFps
  | openautoPath
  | canTimeoutMs
  | reverseDebounceMs
  | reverseDetectionMode
  | reverseCanEnabled
  | reverseCanId
  | reverseByteIndex
  | reverseBitMask
  | reverseExpectedValue
  | reverseGpioEnabled
  | reverseGpioChip
  | reverseGpioLine
  | reverseGpioActiveLow
  | debounceMs
deriving DecidableEq

abbrev Setting.Value : Setting → Type
  | .canInterface | .canProtocol | .cameraDevice | .openautoPath | .reverseDetectionMode
  | .reverseGpioChip => String
  | .canBitrate | .zmqPublishRateHz | .cameraWidth | .cameraHeight | .cameraFps | .canTimeoutMs
  | .reverseDebounceMs | .reverseCanId | .reverseGpioLine | .debounceMs => UInt32
  | .reverseByteIndex | .reverseBitMask | .reverseExpectedValue => UInt8
  | .reverseCanEnabled | .reverseGpioEnabled | .reverseGpioActiveLow => Bool

inductive Listing where
  | signals
  | allowedCommands
  | steeringButtons
deriving DecidableEq

abbrev Listing.Item (R : Type) : Listing → Type
  | .signals => CanSignalDef R
  | .allowedCommands => CanCommandDef
  | .steeringButtons => SteeringButtonDef

abbrev ConfigEntry (R : Type) := Entry Setting.Value (Listing.Item R)

structure ConfigLoader (R : Type) where
  systemConfig : SystemConfig := {}
  signals : List (CanSignalDef R) := []
  allowedCommands : List CanCommandDef := []
  steeringButtons : List SteeringButtonDef := []
  reverseConfig : ReverseConfig := {}

namespace ConfigLoader

variable {R : Type}

def setting (c : ConfigLoader R) : (f : Setting) → f.Value
  | .canInterface => c.systemConfig.canInterface
  | .canBitrate => c.systemConfig.canBitrate
  | .canProtocol => c.systemConfig.canProtocol
  | .zmqPublishRateHz => c.systemConfig.zmqPublishRateHz
  | .cameraDevice => c.systemConfig.cameraDevice
  | .cameraWidth => c.systemConfig.cameraWidth
  | .cameraHeight => c.systemConfig.cameraHeight
  | .cameraFps => c.systemConfig.cameraFps
  | .openautoPath => c.systemConfig.openautoPath
  | .canTimeoutMs => c.systemConfig.canTimeoutMs
  | .reverseDebounceMs => c.systemConfig.reverseDebounceMs
  | .reverseDetectionMode => c.reverseConfig.detectionMode
  | .reverseCanEnabled => c.reverseConfig.canEnabled
  | .reverseCanId => c.reverseConfig.canId
  | .reverseByteIndex => c.reverseConfig.byteIndex
  | .reverseBitMask => c.reverseConfig.bitMask
  | .reverseExpectedValue => c.reverseConfig.expectedValue
  | .reverseGpioEnabled => c.reverseConfig.gpioEnabled
  | .reverseGpioChip => c.reverseConfig.gpioChip
  | .reverseGpioLine => c.reverseConfig.gpioLine
  | .reverseGpioActiveLow => c.reverseConfig.gpioActiveLow
  | .debounceMs => c.reverseConfig.debounceMs

def list (c : ConfigLoader R) : (l : Listing) → List (l.Item R)
  | .signals => c.signals
  | .allowedCommands => c.allowedCommands
  | .steeringButtons => c.steeringButtons

def assign (c : ConfigLoader R) : (f : Setting) → f.Value → ConfigLoader R
  | .canInterface, v => { c with systemConfig.canInterface := v }
  | .canBitrate, v => { c with systemConfig.canBitrate := v }
  | .canProtocol, v => { c with systemConfig.canProtocol := v }
  | .zmqPublishRateHz, v => { c with systemConfig.zmqPublishRateHz := v }
  | .cameraDevice, v => { c with systemConfig.cameraDevice := v }
  | .cameraWidth, v => { c with systemConfig.cameraWidth := v }
  | .cameraHeight, v => { c with systemConfig.cameraHeight := v }
  | .cameraFps, v => { c with systemConfig.cameraFps := v }
  | .openautoPath, v => { c with systemConfig.openautoPath := v }
  | .canTimeoutMs, v => { c with systemConfig.canTimeoutMs := v }
  | .reverseDebounceMs, v => { c with systemConfig.reverseDebounceMs := v }
  | .reverseDetectionMode, v => { c with reverseConfig.detectionMode := v }
  | .reverseCanEnabled, v => { c with reverseConfig.canEnabled := v }
  | .reverseCanId, v => { c with reverseConfig.canId := v }
  | .reverseByteIndex, v => { c with reverseConfig.byteIndex := v }
  | .reverseBitMask, v => { c with reverseConfig.bitMask := v }
  | .reverseExpectedValue, v => { c with reverseConfig.expectedValue := v }
  | .reverseGpioEnabled, v => { c with reverseConfig.gpioEnabled := v }
  | .reverseGpioChip, v => { c with reverseConfig.gpioChip := v }
  | .reverseGpioLine, v => { c with reverseConfig.gpioLine := v }
  | .reverseGpioActiveLow, v => { c with reverseConfig.gpioActiveLow := v }
  | .debounceMs, v => { c with reverseConfig.debounceMs := v }

def withSettings (c : ConfigLoader R) (s : (f : Setting) → f.Value) : ConfigLoader R :=
  { c with
    systemConfig :=
      { canInterface := s .canInterface
        canBitrate := s .canBitrate
        canProtocol := s .canProtocol
        zmqPublishRateHz := s .zmqPublishRateHz
        cameraDevice := s .cameraDevice
        cameraWidth := s .cameraWidth
        cameraHeight := s .cameraHeight
        cameraFps := s .cameraFps
        openautoPath := s .openautoPath
        canTimeoutMs := s .canTimeoutMs
        reverseDebounceMs := s .reverseDebounceMs }
    reverseConfig :=
      { detectionMode := s .reverseDetectionMode
        canEnabled := s .reverseCanEnabled
        canId := s .reverseCanId
        byteIndex := s .reverseByteIndex
        bitMask := s .reverseBitMask
        expectedValue := s .reverseExpectedValue
        gpioEnabled := s .reverseGpioEnabled
        gpioChip := s .reverseGpioChip
        gpioLine := s .reverseGpioLine
        gpioActiveLow := s .reverseGpioActiveLow
        debounceMs := s .debounceMs } }

theorem setting_withSettings (c : ConfigLoader R) (s : (f : Setting) → f.Value) :
    (c.withSettings s).setting = s := by
  funext f
  cases f <;> rfl

theorem withSettings_setting (c : ConfigLoader R) : c.withSettings c.setting = c := rfl

theorem assign_eq (c : ConfigLoader R) (f : Setting) (v : f.Value) :
    c.assign f v = c.withSettings (Function.update c.setting f v) := by
  cases f <;> rfl

theorem setting_assign (c : ConfigLoader R) (f : Setting) (v : f.Value) :
    (c.assign f v).setting = Function.update c.setting f v := by
  rw [assign_eq, setting_withSettings]

theorem list_assign (c : ConfigLoader R) (f : Setting) (v : f.Value) :
    (c.assign f v).list = c.list := by
  rw [assign_eq]
  rfl

def enter (c : ConfigLoader R) : ConfigEntry R → ConfigLoader R
  | .set f v => c.assign f v
  | .append .signals signal => { c with signals := c.signals ++ [signal] }
  | .append .allowedCommands command =>
    { c with allowedCommands := c.allowedCommands ++ [command] }
  | .append .steeringButtons button =>
    { c with steeringButtons := c.steeringButtons ++ [button] }

def ledger (R : Type) : Ledger (ConfigLoader R) Setting.Value (Listing.Item R) where
  setting := setting
  list := list
  enter := enter
  setting_set := setting_assign
  setting_append c l e := by
    cases l <;> rfl
  list_set := list_assign
  list_append c l e := by
    funext k
    cases l <;> cases k <;> rfl
  ext c d hsetting hlist := by
    have hc := c.withSettings_setting
    have hd := d.withSettings_setting
    have hsignals : c.signals = d.signals := congrFun hlist .signals
    have hcommands : c.allowedCommands = d.allowedCommands := congrFun hlist .allowedCommands
    have hbuttons : c.steeringButtons = d.steeringButtons := congrFun hlist .steeringButtons
    rw [← hc, ← hd, hsetting]
    unfold withSettings
    rw [hsignals, hcommands, hbuttons]

def findSignal (c : ConfigLoader R) (name : String) : Option (CanSignalDef R) :=
  c.signals.find? (fun sig => sig.name == name)

def isCommandAllowed (c : ConfigLoader R) (canId : UInt32) : Bool :=
  c.allowedCommands.any (fun cmd => cmd.canId == canId)

theorem isCommandAllowed_iff (c : ConfigLoader R) (canId : UInt32) :
    c.isCommandAllowed canId = true ↔ ∃ cmd ∈ c.allowedCommands, cmd.canId = canId := by
  unfold isCommandAllowed
  rw [List.any_eq_true]
  simp only [beq_iff_eq]

theorem isCommandAllowed_replay (c : ConfigLoader R) (entries : List (ConfigEntry R)) (canId : UInt32) :
    ((ledger R).replay c entries).isCommandAllowed canId = true ↔
      c.isCommandAllowed canId = true ∨
        ∃ cmd ∈ allAppended .allowedCommands entries, cmd.canId = canId := by
  have hlist := (ledger R).list_replay c entries .allowedCommands
  change ((ledger R).replay c entries).allowedCommands = c.allowedCommands ++ _ at hlist
  rw [isCommandAllowed_iff, isCommandAllowed_iff, hlist]
  constructor
  · intro h
    obtain ⟨cmd, hmem, hid⟩ := h
    rcases List.mem_append.mp hmem with hold | hnew
    · exact .inl ⟨cmd, hold, hid⟩
    · exact .inr ⟨cmd, hnew, hid⟩
  · intro h
    rcases h with ⟨cmd, hmem, hid⟩ | ⟨cmd, hmem, hid⟩
    · exact ⟨cmd, List.mem_append_left _ hmem, hid⟩
    · exact ⟨cmd, List.mem_append_right _ hmem, hid⟩

theorem replay_set (c : ConfigLoader R) (f : Setting) (v : f.Value)
    (entries : List (ConfigEntry R)) :
    (ledger R).replay c (.set f v :: entries) = (ledger R).replay (c.assign f v) entries := rfl

def appendSignals (signals : List (CanSignalDef R)) : List (ConfigEntry R) :=
  signals.map (fun signal => .append .signals signal)

theorem replay_appendSignals (c : ConfigLoader R) (signals : List (CanSignalDef R)) :
    (ledger R).replay c (appendSignals signals) = { c with signals := c.signals ++ signals } := by
  induction signals generalizing c with
  | nil => simp [appendSignals]
  | cons signal signals ih =>
    have hrest := ih { c with signals := c.signals ++ [signal] }
    rw [List.append_assoc] at hrest
    exact hrest

end ConfigLoader

end SpeeduinoDash
