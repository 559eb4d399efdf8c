import Conformance.Hierarchy.Standard
import Conformance.Value.Text

/-!
# Applied generic classes

A class that is generic over type variables can be applied to as many arguments.  The bases that make a class
generic take type variables only, each once; built-in collections take any arguments.
-/

namespace Conformance

mutual

/-- The type variables in a value, each once, in the order of their first appearance. -/
def Value.typeVariables : Value → List String
  | .typeVariable n => [n]
  | .applied _ args => Value.typeVariablesOfAll args
  | _ => []

/-- The type variables in some values. -/
def Value.typeVariablesOfAll : List Value → List String
  | [] => []
  | v :: vs => addAbsent v.typeVariables (Value.typeVariablesOfAll vs)

end

mutual

/-- A value with type variables replaced. -/
def Value.substitute (replacements : Namespace) : Value → Value
  | .typeVariable n => (replacements.lookup n).getD (.typeVariable n)
  | .applied origin args => .applied origin (Value.substituteAll replacements args)
  | v => v

/-- Values with type variables replaced. -/
def Value.substituteAll (replacements : Namespace) : List Value → List Value
  | [] => []
  | v :: vs => v.substitute replacements :: Value.substituteAll replacements vs

end

/-- Why a value cannot be applied to arguments. -/
inductive ApplicationError where
  | notSubscriptable (v : Value)
  | notGeneric (v : Value)
  | count (v : Value) (actual expected : Nat)
  | notVariables (c : ClassRef)
  | notUnique (c : ClassRef)

/-- What is said about a value that cannot be applied. -/
def ApplicationError.message : ApplicationError → String
  | notSubscriptable (.type c) => "type '" ++ c.name ++ "' is not subscriptable"
  | notSubscriptable v => "'" ++ v.typeName ++ "' object is not subscriptable"
  | notGeneric v => v.shown ++ " is not a generic class"
  | count v actual expected =>
    "Too " ++ (if actual > expected then "many" else "few") ++ " arguments for " ++ v.shown ++ "; actual " ++
      actual.repr ++ ", expected " ++ expected.repr
  | notVariables c =>
    "Parameters to " ++ c.name ++ "[...] must all be type variables or parameter specification variables."
  | notUnique c => "Parameters to " ++ c.name ++ "[...] must all be unique"

/-- Whether a value is a type variable. -/
def Value.isVariable : Value → Bool
  | .typeVariable _ => true
  | _ => false

namespace Hierarchy

/-- Checks that there are as many arguments as type variables, and at least one. -/
def checkCount (v : Value) (expected : List String) (args : List Value) : Except ApplicationError Unit :=
  if expected.isEmpty then throw (.notGeneric v)
  else if args.length ≠ expected.length then throw (.count v args.length expected.length)
  else return

/-- The first class in the order of a class that says which arguments it takes. -/
def applier? (h : Hierarchy) (c : ClassRef) : Option ClassRef :=
  (h.order c).find? fun k => ((h.body k).lookup "__class_getitem__").isSome

/-- Applies a class to arguments. -/
def applyClass (h : Hierarchy) (c : ClassRef) (args : List Value) : Except ApplicationError Value := do
  if c = .generic ∨ c = .protocol then
    if !args.all Value.isVariable then throw (.notVariables c)
    if (Value.typeVariablesOfAll args).length ≠ args.length then throw (.notUnique c)
  else if h.applier? c = some .generic then
    checkCount (.type c) (((h.class? c).map Class.parameters).getD []) args
  else if c.name ≠ "type" && (h.applier? c).isNone then throw (.notSubscriptable (.type c))
  return .applied (.type c) args

/-- Applies a value to arguments.  What is applied already takes arguments for its type variables. -/
def apply (h : Hierarchy) (v : Value) (args : List Value) : Except ApplicationError Value :=
  match v with
  | .type c => h.applyClass c args
  | .form .. => return .applied v args
  | .applied .. => do
    checkCount v v.typeVariables args
    return v.substitute (v.typeVariables.zip args)
  | v => throw (.notSubscriptable v)

end Hierarchy

end Conformance
