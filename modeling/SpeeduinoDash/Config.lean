set_option autoImplicit false

/-!
# Configuration records

The records that the configuration loader fills and the services read. `R` is the number type
of scale factors and offsets (`double` in the code).
-/
namespace SpeeduinoDash

structure CanSignalDef (R : Type) where
  name : String
  canId : UInt32 := 0
  startByte : UInt8 := 0
  startBit : UInt8 := 0
  lengthBits : UInt8 := 0
  isBigEndian : Bool := false
  isSigned : Bool := false
  scale : R
  offset : R
  unit : String := ""

structure CanCommandDef where
  canId : UInt32 := 0
  rateLimitHz : UInt32 := 10
  description : String := ""
deriving DecidableEq

structure ReverseConfig where
  detectionMode : String := "both"
  canEnabled : Bool := true
  canId : UInt32 := 0x370
  byteIndex : UInt8 := 3
  bitMask : UInt8 := 0x80
  expectedValue : UInt8 := 0x80
  gpioEnabled : Bool := false
  gpioChip : String := "gpiochip0"
  gpioLine : UInt32 := 17
  gpioActiveLow : Bool := false
  debounceMs : UInt32 := 50
deriving DecidableEq

def ReverseConfig.applyPreset (reverse : ReverseConfig) (preset : String) : ReverseConfig :=
  if preset = "gol_quadrado" ∨ preset = "classic_vw" then
    { reverse with
      detectionMode := "gpio"
      canEnabled := false
      gpioEnabled := true
      gpioLine := 17
      gpioActiveLow := true
      debounceMs := 100 }
  else if preset = "speeduino_can" then
    { reverse with
      detectionMode := "can"
      canEnabled := true
      gpioEnabled := false
      canId := 0x370
      byteIndex := 3
      bitMask := 0x80 }
  else if preset = "haltech" then
    { reverse with
      detectionMode := "can"
      canEnabled := true
      gpioEnabled := false
      canId := 0x360
      byteIndex := 4
      bitMask := 0x02 }
  else reverse

structure SteeringButtonDef where
  buttonId : UInt8 := 0
  canId : UInt32 := 0
  byteIndex : UInt8 := 0
  bitMask : UInt8 := 0
  action : String
deriving DecidableEq

structure SystemConfig where
  canInterface : String := "can0"
  canBitrate : UInt32 := 500000
  canProtocol : String := "haltech"
  zmqPublishRateHz : UInt32 := 50
  cameraDevice : String := "/dev/video0"
  cameraWidth : UInt32 := 640
  cameraHeight : UInt32 := 480
  cameraFps : UInt32 := 30
  openautoPath : String := "/usr/local/bin/openauto"
  canTimeoutMs : UInt32 := 500
  reverseDebounceMs : UInt32 := 100
deriving DecidableEq

/-- The first entry of the id, 0 without one. `allowedCommands` is what the loader has read. -/
def ConfigLoader.getCommandRateLimit (allowedCommands : List CanCommandDef) (canId : UInt32) :
    UInt32 :=
  match allowedCommands.find? (fun cmd => cmd.canId == canId) with
  | some cmd => cmd.rateLimitHz
  | none => 0

end SpeeduinoDash
