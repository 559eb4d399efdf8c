import Conformance.Evaluation.Library
import Conformance.Evaluation.World

/-!
# Attributes

An attribute of a class is what its order binds.  A function that is reached through an instance is bound to it,
a class method to the class, and a static method to nothing.
-/

namespace Conformance

/-- A member of a class as it is reached through the class. -/
def memberOfClass (owner : Value) : Value → Value
  | .wrapped .static f => f
  | .wrapped .ofClass f => .bound f owner
  | v => v

/-- A member of a class as it is reached through an instance. -/
def memberOfInstance (owner self : Value) : Value → Value
  | .wrapped .static f => f
  | .wrapped .ofClass f => .bound f owner
  | .wrapped .isAbstract f => .bound f self
  | .function code defaults captured => .bound (.function code defaults captured) self
  | v => v

/-- What every class says about itself. -/
def selfDescription? (c : ClassRef) (name : String) : Option Value :=
  [("__name__", c.name), ("__qualname__", c.qualname), ("__module__", c.home.getD "builtins")].lookup name
    |>.map .text

/-- The attribute of a value. -/
def attribute? (h : Hierarchy) (v : Value) (name : String) : Option Value :=
  match v with
  | .type c => (selfDescription? c name).or ((h.lookup? c name).map (memberOfClass v))
  | .applied (.type c) _ =>
    if name = "__qualname__" then selfDescription? c "__name__"
    else if isSpecial name then selfDescription? c name
    else (h.lookup? c name).map (memberOfClass (.type c))
  | .instanceOf c => (h.lookup? c name).map (memberOfInstance (.type c) v)
  | .object _ attributes => attributes.lookup name
  | .ok x => if name = "value" then some x else none
  | .err e => if name = "error" then some e else none
  | .error _ args => if name = "args" then some (.tuple args) else none
  | .bound f self => if name = "__func__" then some f else if name = "__self__" then some self else none
  | .library path => (Library.contents? path).bind fun names => names.lookup name
  | _ => none

/-- What is said about a value without an attribute. -/
def missingAttribute (v : Value) (name : String) : String :=
  (match v with
    | .type c | .applied (.type c) _ => "type object '" ++ c.name ++ "'"
    | .library path => "module '" ++ ".".intercalate path ++ "'"
    | v => "'" ++ v.typeName ++ "' object") ++ " has no attribute '" ++ name ++ "'"

/-- The attribute of a value, or an error if there is none. -/
def getAttribute (v : Value) (name : String) : Run Value := do
  match attribute? (← get).classes v name with
  | some a => return a
  | none => raising .member (missingAttribute v name)

end Conformance
