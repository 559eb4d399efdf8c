import Conformance.Source.Reference

/-!
# Names of generated code

Generated code shares one hidden method between an interface and its implementations, keeps its local names
under a reserved beginning, and numbers the test functions it makes.
-/

namespace Conformance.Naming

open Source

/-- What every name that generated code introduces for itself starts with. -/
def reserved : String := "_tested_trait"

/-- The method that runs every associated test of an interface. -/
def hiddenMethod : String := reserved ++ "_test_all"

/-- The implementing type inside the hidden method. -/
def implementer : String := reserved ++ "_cls"

/-- The helpers inside the hidden method. -/
def helpers : String := reserved ++ "_runtime"

/-- The value of a test that returns a result. -/
def result : String := reserved ++ "_result"

/-- The short name of an interface. -/
def interfaceName (interface : SyntaxTree) : String :=
  interface.lastSegment?.getD "Trait"

/-- The name of the test function with number `n` for an interface. -/
def synthesized (discovery : String) (interface : SyntaxTree) (n : Nat) : String :=
  discovery ++ "trait_impl_" ++ interfaceName interface ++ "_" ++ n.repr

end Conformance.Naming
