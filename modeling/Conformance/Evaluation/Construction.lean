import Conformance.Evaluation.Native

/-!
# Calling classes

Calling a class makes an instance of it, unless the class is abstract or a protocol.  The classes of errors make
errors and the classes of results make results.
-/

namespace Conformance

/-- An error of a kind made from arguments. -/
def makeError (kind : ErrorKind) (args : List Value) (named : Namespace) : Run Raised := do
  let maker := kind.name ++ ".__init__"
  if kind = .panic then
    let bound ← bindArguments maker (Formals.required ["self", "payload"]) (.nothing :: args) named
    return { kind, args := [argument bound "payload"] }
  else if kind = .unwrap then
    let bound ← bindArguments maker (Formals.required ["self", "error"]) (.nothing :: args) named
    return .ofUnwrap (argument bound "error")
  else if kind = .unsatisfied then
    let formals := Formals.required ["self", "implementer", "requirement"]
    let bound ← bindArguments maker formals (.nothing :: args) named
    return (RequirementError.unsatisfied (argument bound "implementer") (argument bound "requirement")).raised
  else if named.isEmpty then return { kind, args }
  else raising .type (kind.name ++ "() takes no keyword arguments")

/-- What is said about an abstract class that is called. -/
def abstractMessage (c : ClassRef) (unfinished : List String) : String :=
  "Can't instantiate abstract class " ++ c.name ++ " with abstract method" ++ plural unfinished.length ++ " " ++
    listed (unfinished.mergeSort fun a b => a ≤ b)

/-- The member that sets up an instance. -/
def initializer : String := "__init__"

/-- Makes an instance of a class that is not built in. -/
def makeInstance (call : Call) (c : ClassRef) (args : List Value) (named : Namespace) : Run Value := do
  let h := (← get).classes
  let set := h.lookup? c initializer
  let own := set.any fun v => match v with
    | .function .. => true
    | _ => false
  if !own && !h.isProtocol c && !(args.isEmpty && named.isEmpty) then
    raising .type (c.name ++ "() takes no arguments")
  let unfinished := ((h.class? c).map Hierarchy.Class.unfinished).getD []
  if !unfinished.isEmpty then raising .type (abstractMessage c unfinished)
  if own then
    let _ ← call (set.getD .nothing) (.instanceOf c :: args) named
  else if h.isProtocol c then
    raising .type "Protocols cannot be instantiated"
  return .instanceOf c

/-- Calls a class. -/
def construct (call : Call) (c : ClassRef) (args : List Value) (named : Namespace) : Run Value := do
  let h := (← get).classes
  if Hierarchy.errorClasses.any fun s => s.name == c.name && s.home == c.home then
    let r ← makeError ⟨c.name⟩ args named
    return .error r.kind r.args
  else if Hierarchy.standard.named? "Ok" = some c then
    let bound ← bindArguments "Ok.__init__" { plain := [("self", none), ("value", some .nothing)] }
      (.nothing :: args) named
    return .ok (argument bound "value")
  else if Hierarchy.standard.named? "Err" = some c then
    let bound ← bindArguments "Err.__init__" { plain := [("self", none), ("error", some .nothing)] }
      (.nothing :: args) named
    return .err (argument bound "error")
  else if c.home.isSome && (h.class? c).any (fun k => k.layout == .object) then makeInstance call c args named
  else unsupported ("calling " ++ c.path)

end Conformance
