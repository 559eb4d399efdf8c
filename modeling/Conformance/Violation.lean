import Conformance.Diagnostic
import Conformance.Source.Literal

/-!
# Violations

Everything that can be wrong with an annotated class, with the category and the wording of the report in one
place.
-/

namespace Conformance

open Source

/-- A rule that an annotated definition breaks. -/
inductive Violation where
  /-- The marker of an interface has arguments. -/
  | interfaceArguments
  /-- The marker of an interface stands on something else. -/
  | notInterface
  | asyncTest
  | reservedTestName
  | missingTestBody
  | testParameters (test : String)
  | repeatedShouldPanic
  | shouldPanicForm
  | panicWithResult
  | requiresForm
  | duplicateTest (test : String)
  /-- The marker of an implementation stands on something else, or on a class without an interface. -/
  | notImplementation
  /-- An instantiation is no pair of a type and an interface. -/
  | pairForm
  | negativeImplementation
  /-- A list of instantiations for a class without type parameters. -/
  | unexpectedPairs
  /-- No instantiations for a class with type parameters. -/
  | missingPairs (name : String) (parameters : List String) (interface : String)
  | repeatedMarker
  | nestedMarker (word : String)
  deriving DecidableEq, Repr

namespace Violation

/-- The category of a violation. -/
def kind : Violation → DiagnosticKind
  | interfaceArguments | repeatedShouldPanic | shouldPanicForm | requiresForm => .malformedArguments
  | notInterface | asyncTest | reservedTestName | notImplementation | repeatedMarker | nestedMarker _ =>
    .unexpectedConstruct
  | missingTestBody => .missingTestBody
  | testParameters _ => .invalidTestSignature
  | panicWithResult => .conflictingTestKind
  | duplicateTest _ => .duplicateTestName
  | pairForm => .invalidArguments
  | negativeImplementation => .unsupportedNegativeImpl
  | unexpectedPairs => .unexpectedConcreteList
  | missingPairs .. => .missingInstantiations

/-- The wording of a violation. -/
def message : Violation → String
  | interfaceArguments => "@tested_trait takes no arguments"
  | notInterface => "@tested_trait can only be used to annotate trait definitions"
  | asyncTest => "associated tests cannot be async"
  | reservedTestName => "test names starting with `_tested_trait` are reserved"
  | missingTestBody => "associated @test functions must have a body"
  | testParameters test =>
    "associated test `" ++ test ++ "` must take no parameters or only the implementing type"
  | repeatedShouldPanic => "@should_panic may only be applied once"
  | shouldPanicForm => "invalid @should_panic syntax"
  | panicWithResult => "@should_panic tests cannot return a result"
  | requiresForm => "invalid @requires syntax"
  | duplicateTest test => "the test `" ++ test ++ "` is defined multiple times"
  | notImplementation => "@test_impl can only be used to annotate trait implementations"
  | pairForm => "@test_impl received invalid arguments: expected (Type, Interface) pairs"
  | negativeImplementation => "@test_impl does not support negative trait implementations"
  | unexpectedPairs =>
    "@test_impl on a non-generic implementation does not support specifying concrete implementations"
  | missingPairs name parameters interface =>
    "@test_impl on a generic implementation requires specifying concrete implementations with @test_impl((" ++
      name ++ "[" ++ ", ".intercalate parameters ++ "], " ++ interface ++ "))"
  | repeatedMarker => "@tested_trait and @test_impl may only be applied once, and not to the same class"
  | nestedMarker word => "@" ++ word ++ " cannot be used inside another expanded class"

/-- The fault of a violation at a place, with notes. -/
def fault (v : Violation) (node : Option Extent) (notes : List (String × Option Extent)) : Fault Extent :=
  { kind := v.kind, main := { message := v.message, node },
    notes := notes.map fun n => { message := n.1, node := n.2 } }

end Violation

/-- Why an expansion stops: with a report, or because a literal it has to look at has no value. -/
inductive Failure where
  | fault (f : Fault Extent)
  | literal (e : LiteralError)
  deriving DecidableEq, Repr

/-- Looks up the places of a reported failure. -/
def Failure.locate (find : Extent → Option Span) (fallback : Option Span) : Failure → Failure
  | fault f => fault (f.locate find fallback)
  | literal e => literal e

/-- Stops with a violation. -/
def violated {α : Type} (v : Violation) (node : Option Extent) (notes : List (String × Option Extent) := []) :
    Except Failure α :=
  .error (.fault (v.fault node notes))

end Conformance
