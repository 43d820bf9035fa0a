import SpeeduinoDash.LastWriter

set_option autoImplicit false

/-!
# Frames that carry no measurement

The parser looks at the id and the bytes of a frame and at neither of its kind flags, so a
remote or an error frame is decoded like a data frame. With exact rationals.
-/
namespace SpeeduinoDash.CanParser
open EngineData Lib.Keyed Lib.Runs

/-- What the engine data say apart from their time and the health of the bus. -/
def measured (data : EngineData) : EngineData :=
  { data with timestampMs := 0, flags := data.flags &&& ~~~flagCanOk }

end SpeeduinoDash.CanParser
