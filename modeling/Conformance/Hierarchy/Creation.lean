import Conformance.Hierarchy.Application
import Conformance.Hierarchy.Order

/-!
# Making classes

A class is made from its bases and its body.  A generic class that is applied to arguments stands for itself as
a base, and its type variables become those of the new class.  The order is merged from the orders of the bases;
a protocol derives from protocols only; and a function without a body stays unfinished until a class in the
order gives it one.
-/

namespace Conformance

/-- What a class is made from. -/
structure Draft where
  name : String
  qualname : String := name
  home : String
  /-- The bases as they are written. -/
  bases : List Value := []
  body : Namespace := []
  hints : List String := []
  /-- Whether it keeps track of abstract functions, whatever its bases do. -/
  tracksAbstract : Bool := false

/-- Why a class cannot be made. -/
inductive ClassError where
  | notClass (base : Value)
  | closedBase (c : ClassRef)
  | layoutConflict
  | duplicateBase (c : ClassRef)
  | contradiction (bases : List ClassRef)
  | plainGeneric
  | manyGenerics
  | unlisted (missing listed : List String)
  | protocolBase (c : ClassRef)
  | notProtocol (c : ClassRef)

/-- What is said about a class that cannot be made. -/
def ClassError.message : ClassError → String
  | notClass base => "bases must be types, got " ++ base.shown
  | closedBase c => "type '" ++ c.name ++ "' is not an acceptable base type"
  | layoutConflict => "multiple bases have instance lay-out conflict"
  | duplicateBase c => "duplicate base class " ++ c.name
  | contradiction bases =>
    "Cannot create a consistent method resolution\norder (MRO) for bases " ++ listed (bases.map ClassRef.name)
  | plainGeneric => "Cannot inherit from plain Generic"
  | manyGenerics => "Cannot inherit from Generic[...] multiple times."
  | unlisted missing given =>
    "Some type variables (" ++ listed (missing.map ("~" ++ ·)) ++ ") are not listed in Generic[" ++
      listed (given.map ("~" ++ ·)) ++ "]"
  | protocolBase c => "Protocols can only inherit from other protocols, got " ++ c.shown
  | notProtocol c => "@runtime_checkable can be only applied to protocol classes, got " ++ c.shown

namespace Hierarchy

/-! ## Bases -/

/-- Whether a base is a class that is not built in, applied to arguments. -/
def isAppliedUser : Value → Bool
  | .applied origin _ => origin.isUserClass
  | _ => false

/-- Whether a base is applied to arguments. -/
def isApplied : Value → Bool
  | .applied .. => true
  | _ => false

/-- Whether a base is the base of generic classes, applied to type variables. -/
def isAppliedGeneric : Value → Bool
  | .applied (.type c) _ => c = .generic
  | _ => false

/-- Whether a base is a class as it stands. -/
def isClass (c : ClassRef) : Value → Bool
  | .type d => d = c
  | _ => false

/-- The classes that bases stand for.  The base of generic classes is left out where a later base or a protocol
brings it along. -/
def resolveBases (protocolNamed : Bool) : List Value → Except ClassError (List ClassRef)
  | [] => return []
  | .type c :: rest => return c :: (← resolveBases protocolNamed rest)
  | .applied (.type c) _ :: rest => do
    let others ← resolveBases protocolNamed rest
    return if c = .generic && (protocolNamed || rest.any isAppliedUser) then others else c :: others
  | base :: _ => throw (.notClass base)

/-- The layout that bases agree on, starting from one of them. -/
def commonLayout (h : Hierarchy) (winner : ClassRef) : List ClassRef → Except ClassError ClassRef
  | [] => return winner
  | c :: cs =>
    let layout := ((h.class? c).map Class.layout).getD .object
    if h.derives winner layout then commonLayout h winner cs
    else if h.derives layout winner then commonLayout h layout cs
    else throw .layoutConflict

/-- The first class that is named twice. -/
def firstDuplicate? : List ClassRef → Option ClassRef
  | [] => none
  | c :: cs => if cs.contains c then some c else firstDuplicate? cs

/-! ## Type variables -/

/-- The type variables of a class with these bases. -/
def parametersOf (bases : List Value) : Except ClassError (List String) := do
  let applied := bases.filter isApplied
  if bases.any (isClass .generic) then throw .plainGeneric
  let found := Value.typeVariablesOfAll applied
  match bases.filter isAppliedGeneric with
  | [] => return found
  | [g] =>
    let given := g.typeVariables
    let missing := found.filter fun v => !given.contains v
    if missing.isEmpty then return given else throw (.unlisted missing given)
  | _ => throw .manyGenerics

/-! ## Protocols and abstract functions -/

/-- Whether a class with this body and these bases is a protocol, if it derives from one. -/
def protocolStatus (body : Namespace) (bases : List ClassRef) : Value :=
  match body.lookup protocolFlag with
  | some v => if v.truth then v else .bool (bases.contains .protocol)
  | none => .bool (bases.contains .protocol)

/-- The first base that a protocol cannot derive from. -/
def strangeBase? (h : Hierarchy) (bases : List ClassRef) : Option ClassRef :=
  bases.find? fun b => !(b = .object || b = .generic || (h.derives b .generic && h.isProtocol b))

/-- The functions without a body in a class that is already part of the hierarchy: its own, and those of its
bases that are not given one. -/
def unfinishedOf (h : Hierarchy) (c : ClassRef) (bases : List ClassRef) : List String :=
  let own := ((h.body c).filter fun (_, v) => v.isAbstract).map Prod.fst
  let inherited := bases.flatMap fun b => ((h.class? b).map Class.unfinished).getD []
  addAbsent own (inherited.filter fun n => (h.lookup? c n).any Value.isAbstract)

/-! ## Classes -/

/-- Adds entries of which only the names matter, unless they are bound. -/
def withNames (names : List String) (body : Namespace) : Namespace :=
  body ++ (names.filter fun n => (body.lookup n).isNone).map fun n => (n, unknownMember)

/-- The classes that a draft derives from: those it names, or the root. -/
def basesOf (d : Draft) : Except ClassError (List ClassRef) := do
  let named ← resolveBases (d.bases.any (isClass .protocol)) d.bases
  return if named.isEmpty then [.object] else named

/-- The layout of a class with these bases, and the classes after it in its order, if the bases go together. -/
def above (h : Hierarchy) (bases : List ClassRef) : Except ClassError (ClassRef × List ClassRef) :=
  match bases.find? fun c => (h.class? c).any Class.closed with
  | some c => throw (.closedBase c)
  | none => do
    let layout ← commonLayout h .object bases
    match firstDuplicate? bases, mergeOrders (bases.map h.order ++ [bases]) with
    | some c, _ => throw (.duplicateBase c)
    | none, some rest => return (layout, rest)
    | none, none => throw (.contradiction bases)

/-- Checks that a protocol derives from protocols only. -/
def checkProtocol (h : Hierarchy) (d : Draft) (bases rest : List ClassRef) : Except ClassError Unit := do
  if rest.contains .protocol && (protocolStatus d.body bases).truth then
    if let some b := strangeBase? h bases then throw (.protocolBase b)

/-- The names that making a class adds to its body. -/
def addedNames (tracksAbstract isGeneric applied : Bool) : List String :=
  ["__module__", "__doc__", "__dict__", "__weakref__", "__annotations__"] ++
    (if tracksAbstract then ["__abstractmethods__", "_abc_impl"] else []) ++
    (if isGeneric then ["__parameters__"] else []) ++
    (if applied then ["__orig_bases__"] else [])

/-- The class that a draft becomes, with the classes after it in its order. -/
def assemble (h : Hierarchy) (d : Draft) (bases rest : List ClassRef) (layout : ClassRef)
    (parameters : List String) : Class :=
  let ref : ClassRef :=
    { index := h.classes.length, home := some d.home, name := d.name, qualname := d.qualname }
  let tracksAbstract := d.tracksAbstract || bases.any fun b => (h.class? b).any Class.tracksAbstract
  let body :=
    if rest.contains .protocol then Namespace.bind protocolFlag (protocolStatus d.body bases) d.body else d.body
  let names := addedNames tracksAbstract (rest.contains .generic) (d.bases.any isApplied)
  let c : Class :=
    { ref, order := ref :: rest, body := withNames names body, hints := d.hints, tracksAbstract, parameters,
      layout }
  { c with unfinished := if tracksAbstract then unfinishedOf (h.add c) ref bases else [] }

/-- Makes a class and adds it to the hierarchy. -/
def create (h : Hierarchy) (d : Draft) : Except ClassError (Hierarchy × ClassRef) := do
  let bases ← basesOf d
  let (layout, rest) ← h.above bases
  let parameters ← (if rest.contains .generic then parametersOf d.bases else pure [])
  h.checkProtocol d bases rest
  let c := h.assemble d bases rest layout parameters
  return (h.add c, c.ref)

/-- Whether instances can be checked against a class at run time, which only protocols allow. -/
def allowChecks (h : Hierarchy) (c : ClassRef) : Except ClassError Unit :=
  if h.derives c .generic && h.isProtocol c then return else throw (.notProtocol c)

end Hierarchy

end Conformance
