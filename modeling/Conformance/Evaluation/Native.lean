import Conformance.Evaluation.Arguments
import Conformance.Evaluation.Attribute
import Conformance.Outcome
import Conformance.Requirement
import Conformance.Text.Lines

/-!
# The functions that modules import

Markers return what they decorate; the other functions check requirements and outcomes of tests.
-/

namespace Conformance

/-- Parameters without defaults. -/
def Formals.required (names : List String) : Formals :=
  { plain := names.map fun n => (n, none) }

namespace Native

/-- The name a function is called by in messages. -/
def name : Native → String
  | print => "print"
  | marker m => m.word
  | decorator => "<lambda>"
  | panicAny => "panic_any"
  | unwrap => "unwrap"
  | expectUnit => "expect_unit"
  | catchUnwind => "catch_unwind"
  | panicMessage => "panic_message"
  | expectPanic => "expect_panic"
  | checkRequirements => "check_requirements"
  | typeVariable => "TypeVar"
  | wrap .static => "staticmethod"
  | wrap .ofClass => "classmethod"
  | wrap .isAbstract => "abstractmethod"
  | runtimeCheckable => "runtime_checkable"

/-- The parameters of a function. -/
def formals : Native → Formals
  | print => { rest := some "values" }
  | marker .interface => { plain := [("cls", some .nothing)] }
  | marker .implementation => { rest := some "instantiations" }
  | marker .test => .required ["fn"]
  | marker .shouldPanic => { plain := [("fn", some .nothing), ("expected", some .nothing)] }
  | marker .requires => { rest := some "requirements" }
  | marker .runInline => .required ["cls"]
  | decorator => .required ["inner"]
  | panicAny => .required ["payload"]
  | unwrap => .required ["value"]
  | expectUnit => .required ["value", "name"]
  | catchUnwind => { plain := [("fn", none)], rest := some "args", restNamed := some "kwargs" }
  | panicMessage => .required ["payload"]
  | expectPanic => { plain := [("outcome", none), ("expected", some .nothing)] }
  | checkRequirements => { plain := [("implementer", none)], rest := some "requirements" }
  | typeVariable => { plain := [("name", none)], rest := some "constraints", restNamed := some "options" }
  | wrap _ => .required ["function"]
  | runtimeCheckable => .required ["cls"]

end Native

/-- What a parameter is bound to. -/
def argument (bound : Namespace) (name : String) : Value := (bound.lookup name).getD .nothing

/-- The values that a parameter collects. -/
def collected (bound : Namespace) (name : String) : List Value :=
  match bound.lookup name with
  | some (.tuple vs) => vs
  | _ => []

/-- The keyword arguments that a parameter collects. -/
def collectedNamed (bound : Namespace) (name : String) : Namespace :=
  match bound.lookup name with
  | some (.dict es) => es.filterMap fun (k, v) => k.text?.map fun n => (n, v)
  | _ => []

/-- What a marker returns. -/
def markerResult (m : Marker) (bound : Namespace) : Value :=
  match m with
  | .interface =>
    match argument bound "cls" with
    | .nothing => .native .decorator
    | v => v
  | .implementation =>
    match collected bound "instantiations" with
    | [.type c] => .type c
    | _ => .native .decorator
  | .shouldPanic => if (argument bound "fn").isCallable then argument bound "fn" else .native .decorator
  | .requires => .native .decorator
  | .test => argument bound "fn"
  | .runInline => argument bound "cls"

/-- Prints values in one line. -/
def printValues (vs : List Value) : Run Unit :=
  (Text.lines (" ".intercalate (vs.map Value.plain) ++ "\n")).forM printLine

/-- A result of a check without effects. -/
def settled {α : Type} : Except Raised α → Run α
  | .ok a => return a
  | .error e => throw e

/-- Unwraps a value, by its own method if it has one that can be called. -/
def unwrap (call : Call) (v : Value) : Run Value := do
  let h := (← get).classes
  unwrapWith (fun v =>
    match attribute? h v "unwrap" with
    | some m => if m.isCallable then some (call m [] []) else none
    | none => none) v

/-- Carries out a function for the values of its parameters. -/
def Native.carryOut (call : Call) (n : Native) (bound : Namespace) : Run Value :=
  match n with
  | .print => do
    printValues (collected bound "values")
    return .nothing
  | .marker m => return markerResult m bound
  | .decorator => return argument bound "inner"
  | .panicAny => throw { kind := .panic, args := [argument bound "payload"] }
  | .unwrap => Conformance.unwrap call (argument bound "value")
  | .expectUnit => do
    settled (Conformance.expectUnit (argument bound "value") (argument bound "name"))
    return .nothing
  | .catchUnwind => do
    let o ← Conformance.catchUnwind
      (call (argument bound "fn") (collected bound "args") (collectedNamed bound "kwargs"))
    return o.toValue
  | .panicMessage => do
    let _ ← settled (Conformance.panicMessage (argument bound "payload"))
    return argument bound "payload"
  | .expectPanic =>
    match Outcome.ofValue? (argument bound "outcome") with
    | some o => do
      settled (Conformance.expectPanic o (argument bound "expected"))
      return .nothing
    | none => raising .member (missingAttribute (argument bound "outcome") "completed")
  | .checkRequirements => do
    Conformance.checkRequirements call (argument bound "implementer") (collected bound "requirements")
    return .nothing
  | .typeVariable => return .typeVariable (argument bound "name").plain
  | .wrap w => return .wrapped w (argument bound "function")
  | .runtimeCheckable =>
    match argument bound "cls" with
    | .type c => do
      fromClasses (fun h => h.allowChecks c) ClassError.message
      return .type c
    | v => raising .type ("issubclass() arg 1 must be a class, not " ++ v.typeName)

/-- Calls a function that modules import. -/
def Native.call (call : Call) (n : Native) (args : List Value) (named : Namespace) : Run Value := do
  n.carryOut call (← bindArguments n.name n.formals args named)

end Conformance
