import Conformance.Level
import Conformance.Marker

/-!
# Settings
-/

namespace Conformance

/-- What an expansion can be configured with. -/
structure Settings where
  /-- The beginning of the names of generated test functions, by which they are discovered. -/
  testPrefix : String := "test_"
  /-- The module names that may stand before a marker. -/
  aliases : List String := Marker.defaultAliases
  logLevel : Level := .warning
  deriving DecidableEq, Repr, Inhabited

end Conformance
