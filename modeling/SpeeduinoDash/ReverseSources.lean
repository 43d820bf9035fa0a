import SpeeduinoDash.ReverseService

set_option autoImplicit false

/-!
# Which sources the reverse service uses

The detector derives the sources from the detection mode, the main program looks at the flags of
the configuration itself.
-/
namespace SpeeduinoDash.ReverseService
open Lib.Alternation Lib.ByteOrder Lib.Debounce Lib.Runs
open ReverseDetector (Event started debounced)

section Sources

variable (delivers : UInt32 → UInt32 → KernelFrame → Bool) (config : ReverseConfig)

variable {delivers config}

end Sources

end SpeeduinoDash.ReverseService
