import Conformance.Interface.Basic
import Conformance.Source.Generated
import Conformance.Names

/-!
# Implementations

An implementation is a class that lists the interface it implements among its bases.  A class without type
parameters is tested for itself; a class with type parameters needs a list of instantiations, each a pair of a
concrete type and an interface.
-/

namespace Conformance

open Source

/-- A concrete type and the interface it is tested for. -/
structure Instantiation where
  implementer : SyntaxTree
  interface : SyntaxTree
  deriving Repr, Inhabited

/-- The elements of a tuple. -/
def tupleElements? (t : SyntaxTree) : Option (List SyntaxTree) :=
  let e := t.core
  if e.is .tuple then some e.items else none

/-- The pair that an argument of the marker stands for. -/
def Instantiation.ofArgument? (a : SyntaxTree) : Option Instantiation := do
  let .positional value ← a.argument? | none
  match ← tupleElements? value with
  | [implementer, interface] =>
    if implementer.is .starred || interface.is .starred then none else some { implementer, interface }
  | _ => none

/-- Reads the arguments of the marker as pairs. -/
def instantiations (args : List SyntaxTree) : Except Failure (List Instantiation) :=
  args.mapM fun a =>
    match Instantiation.ofArgument? a with
    | some i => .ok i
    | none => violated .pairForm a.argumentExtent?

/-! ## Bases -/

/-- The bases that only declare type parameters. -/
def genericBases : List String :=
  ["Generic", "typing.Generic", "Protocol", "typing.Protocol", "typing_extensions.Protocol"]

/-- Whether the expression names one of the bases that only declare type parameters. -/
def isGenericBase (t : SyntaxTree) : Bool :=
  match t.dotted? with
  | some name => genericBases.contains name
  | none => false

/-- What the bases of a class say: the interface, and the type parameters. -/
structure Ancestry where
  interface : Option SyntaxTree := none
  parameters : List String := []
  deriving Repr, Inhabited

/-- The value of an index, without its star. -/
def indexValue? : SyntaxTree → Option SyntaxTree
  | .node .index [e] => some e
  | .node .index [_, e] => some e
  | _ => none

/-- Takes in one base. -/
def Ancestry.add (typeVariables : List String) (a : Ancestry) (base : SyntaxTree) : Except Failure Ancestry :=
  let other (a : Ancestry) : Ancestry := { a with interface := a.interface <|> some base }
  match base.core with
  | .node .unary (.leaf op :: operand) =>
    if op.text == "~" then
      violated .negativeImplementation (SyntaxTree.node .unary (.leaf op :: operand)).extent?
    else .ok (other a)
  | .node .subscript (value :: rest) =>
    let members := (SyntaxTree.node .subscript rest).items
    if isGenericBase value then
      let params := members.filterMap fun m => (indexValue? m).map SyntaxTree.code
      .ok { a with parameters := params.foldl addNew a.parameters }
    else
      let used := (SyntaxTree.namesAll members).filter typeVariables.contains
      .ok (other { a with parameters := used.foldl addNew a.parameters })
  | _ => if isGenericBase base then .ok a else .ok (other a)

/-- The interface and the type parameters of a class.  Bases with a keyword or a star do not count. -/
def Ancestry.ofHead (typeVariables : List String) (h : ClassHead) : Except Failure Ancestry :=
  let positional := h.bases.filterMap fun b =>
    match b with
    | .positional value => some value
    | _ => none
  positional.foldlM (Ancestry.add typeVariables) { parameters := h.typeParameters }

/-! ## Reading -/

/-- A class with the instantiations it is tested for. -/
structure Implementation where
  definition : Class
  instantiations : List Instantiation
  /-- Whether the tests are run where they are generated. -/
  inline : Bool

/-- The instantiations of a class, from those listed and what its bases say. -/
def resolve (c : Class) (args : List SyntaxTree) (listed : List Instantiation) (interface : SyntaxTree)
    (parameters : List String) : Except Failure (List Instantiation) :=
  match parameters, listed with
  | [], [] => .ok [{ implementer := .ofName c.name, interface }]
  | [], _ :: _ => violated .unexpectedPairs (args.head?.bind SyntaxTree.argumentExtent?)
  | _ :: _, [] =>
    violated (.missingPairs c.name parameters interface.code) c.head.name.extent?
      [("associated tests for this generic implementation can only be instantiated for concrete types", none)]
  | _ :: _, _ :: _ => .ok listed

/-- Reads an implementation from what the marker stands on and the marker's arguments. -/
def Implementation.read (aliases typeVariables : List String) (args : List SyntaxTree) (item : Statement) :
    Except Failure Implementation := do
  let some c := item.class? | violated .notImplementation item.extent?
  let listed ← Conformance.instantiations args
  let ancestry ← Ancestry.ofHead typeVariables c.head
  let some interface := ancestry.interface
    | violated .notImplementation c.head.name.extent?
        [("the implemented interface must be listed as a base class", none)]
  let instantiations ← resolve c args listed interface ancestry.parameters
  let (kept, removed) := Marker.strip aliases [.runInline] c.prelude.decorators
  let definition := { c with prelude := { c.prelude with decorators := kept } }
  return { definition, instantiations, inline := !removed.isEmpty }

end Conformance
