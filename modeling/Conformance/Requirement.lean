import Conformance.Evaluation.World
import Conformance.Naming

/-!
# Requirements

A requirement is met by a type that is not abstract, by a type that derives from a class, or by whatever a
predicate accepts.  A protocol is met by deriving from it, or by having every member it declares, as an attribute
or as an annotated name.  Requirements are checked in order, and the first one that is not met is reported.
-/

namespace Conformance

/-- Why a check of requirements fails. -/
inductive RequirementError where
  /-- A value that is no class was to be compared with a class. -/
  | notClass
  /-- Something that is no class was to be compared with. -/
  | notComparable (v : Value)
  | invalid (requirement : Value)
  | unsatisfied (implementer requirement : Value)

namespace RequirementError

/-- What is said about the failure. -/
def message : RequirementError → String
  | notClass => "issubclass() arg 1 must be a class"
  | notComparable v => v.shown ++ " cannot be used with issubclass()"
  | invalid r => "invalid requirement: " ++ r.shown
  | unsatisfied i r => "`" ++ i.label ++ "` does not satisfy requirement `" ++ r.label ++ "`"

/-- The kind of error that is raised. -/
def kind : RequirementError → ErrorKind
  | unsatisfied .. => .unsatisfied
  | _ => .type

def raised (e : RequirementError) : Raised := .say e.kind e.message

end RequirementError

namespace Hierarchy

/-! ## Protocols -/

/-- Whether a name is part of how classes are kept and not a member of a protocol. -/
def isBookkeeping (name : String) : Bool :=
  begins "__" name || begins "_abc_" name || begins Naming.reserved name ||
    name == protocolFlag || name == "_is_runtime_protocol"

/-- The classes whose members no protocol declares. -/
def roots : List ClassRef := [.object, .protocol, .generic]

/-- The names that a class binds or annotates. -/
def ownNames (h : Hierarchy) (c : ClassRef) : List String :=
  (h.body c).map Prod.fst ++ h.hints c

/-- The members that a protocol and the protocols it derives from declare. -/
def protocolMembers (h : Hierarchy) (p : ClassRef) : List String :=
  (((h.order p).filter fun c => !roots.contains c).flatMap h.ownNames).filter fun n => !isBookkeeping n

/-- The order of a value that is a class. -/
def orderOf (h : Hierarchy) : Value → List ClassRef
  | .type c => h.order c
  | _ => []

/-- The names that the classes in the order of a value annotate. -/
def declared (h : Hierarchy) (target : Value) : List String :=
  (h.orderOf target).flatMap h.hints

/-- Whether a value has or annotates every member of a protocol. -/
def provides (h : Hierarchy) (target : Value) (p : ClassRef) : Bool :=
  (h.protocolMembers p).all fun n => h.has target n || (h.declared target).contains n

/-! ## Classes -/

/-- Whether a value meets the requirement that a class is. -/
def isSubtype (h : Hierarchy) (target : Value) (c : ClassRef) : Except RequirementError Bool :=
  if h.isProtocol c then
    return (h.orderOf target).contains c || h.provides target c
  else
    match target with
    | .type t => return h.derives t c
    | _ => throw .notClass

end Hierarchy

/-! ## Checks -/

/-- The class that an applied generic class is made from; any other value is taken as it is. -/
def Value.origin : Value → Value
  | .applied o _ => o
  | v => v

/-- Whether a type meets a requirement other than a predicate; none if the requirement is something to call. -/
def meets? (h : Hierarchy) (implementer : Value) : Value → Except RequirementError (Option Bool)
  | .concrete => return some (!h.isAbstract implementer.origin)
  | .applied (.type c) _ | .type c => return some (← h.isSubtype implementer.origin c)
  | .applied o _ => throw (.notComparable o)
  | r => if r.isCallable then return none else throw (.invalid r)

/-- Whether a type meets a requirement. -/
def meets (call : Call) (implementer requirement : Value) : Run Bool := do
  match meets? (← get).classes implementer requirement with
  | .error e => throw e.raised
  | .ok (some b) => return b
  | .ok none => return (← call requirement [implementer] []).truth

/-- Checks requirements one after the other, up to the first that is not met. -/
def checkRequirements (call : Call) (implementer : Value) : List Value → Run Unit
  | [] => return
  | r :: rs => do
    if ← meets call implementer r then checkRequirements call implementer rs
    else throw (RequirementError.unsatisfied implementer r).raised

end Conformance
