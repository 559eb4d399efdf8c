import Conformance.Marker
import Conformance.Naming
import Conformance.Violation

/-!
# Associated tests

A method of an interface that carries the bare `test` marker is an associated test.  `AssociatedTest.read`
checks the rules for one in a fixed order and takes its markers off:

* it is not `async`, its name is not reserved, and it has a body;
* it takes no parameters, or only the implementing type;
* it returns a result, or must panic, or neither, but not both;
* its requirements are plain positional arguments.
-/

namespace Conformance

open Source

/-- How a test passes. -/
inductive TestKind where
  /-- It completes and returns nothing. -/
  | standard
  /-- It returns a result value that is unwrapped; `output` is the annotation of that value. -/
  | returnsResult (output : SyntaxTree)
  /-- It raises; `expected` is text that has to occur in what it raises. -/
  | shouldPanic (expected : Option SyntaxTree)
  deriving Repr

/-- A function with its prelude. -/
structure Function where
  prelude : Prelude
  head : FunctionHead
  body : Suite

namespace Function

def name (f : Function) : String := f.head.name.text

def statement (f : Function) : Statement := .ofFunction f.prelude f.head f.body

def extent? (f : Function) : Option Extent := f.head.extent? f.body

end Function

/-- An associated test of an interface. -/
structure AssociatedTest where
  kind : TestKind
  requirements : List SyntaxTree
  /-- The method without its markers, ready to be nested. -/
  function : Function
  /-- Whether the function receives the implementing type. -/
  takesType : Bool

def AssociatedTest.name (t : AssociatedTest) : String := t.function.name

/-! ## Rules -/

/-- The small statements of a suite, if it holds nothing else. -/
def Source.Suite.smallStatements? : Suite → Option (List SyntaxTree)
  | .inline body _ => some body.smallStatements
  | .block _ _ body _ =>
    (body.mapM fun (s : Statement) =>
      match s with
      | .simple _ line _ => some line.smallStatements
      | _ => none).map List.flatten

/-- Whether a small statement is a string by itself. -/
def isDocumentation : SyntaxTree → Bool
  | .node .expression [e] =>
    match e.core with
    | .leaf t => t.kind == .string
    | t => t.is .strings
  | _ => false

/-- Whether a small statement is `...` by itself. -/
def isEllipsis : SyntaxTree → Bool
  | .node .expression [e] => e.core.isOperator "..."
  | _ => false

/-- Whether a suite is only `...`, perhaps after a string. -/
def isStub (body : Suite) : Bool :=
  match body.smallStatements? with
  | none => false
  | some small =>
    let rest := match small with
      | first :: rest => if isDocumentation first then rest else small
      | [] => []
    match rest with
    | [only] => isEllipsis only
    | _ => false

/-- Whether a child of a parameter list is a parameter that may be given by position. -/
def isPlainParameter (t : SyntaxTree) : Bool := t.is .parameter

/-- Whether a child of a parameter list has a star. -/
def isStarParameter (t : SyntaxTree) : Bool :=
  t.is .starParameter || t.is .bareStar || t.is .doubleStarParameter

/-- Whether the test takes the implementing type; `none` if it takes anything else. -/
def takesType? (h : FunctionHead) : Option Bool :=
  let plain := h.parameters.filter isPlainParameter
  if h.parameters.any isStarParameter || 1 < plain.length then none else some (plain.length == 1)

/-- The annotation of a result.  No annotation and `None`, also in quotes, mean that there is no result. -/
def resultType (h : FunctionHead) : Except LiteralError (Option SyntaxTree) :=
  match h.returns? with
  | none => .ok none
  | some e =>
    match e.core with
    | .leaf t =>
      if t.kind == .name && t.text == "None" then .ok none
      else if t.kind == .string then do
        let value ← Literal.evaluate t.text
        return if value == .text ("None".toList.map Char.toNat) then none else some e
      else .ok (some e)
    | _ => .ok (some e)

/-- The `should_panic` marker of a test, with the text it expects. -/
def shouldPanic (aliases : List String) (f : Function) : Except Failure (Option (Option SyntaxTree)) :=
  match f.prelude.decorators.filter (Marker.shouldPanic.marks aliases) with
  | [] => .ok none
  | [d] =>
    match d.expression.arguments with
    | [] => .ok (some none)
    | [a] =>
      match a.argument? with
      | some (.positional value) => .ok (some (some value))
      | some (.keyword name value) =>
        if name.text == "expected" then .ok (some (some value)) else violated .shouldPanicForm d.extent?
      | _ => violated .shouldPanicForm d.extent?
    | _ => violated .shouldPanicForm d.extent?
  | _ :: second :: _ => violated .repeatedShouldPanic second.extent?

/-- The requirement an argument of `requires` stands for. -/
def requirement (a : SyntaxTree) : Except Failure SyntaxTree :=
  match a.argument? with
  | some (.positional value) => .ok value
  | _ => violated .requiresForm a.argumentExtent?

/-- The requirements of a test, in the order they are written. -/
def requirementsOf (aliases : List String) (f : Function) : Except Failure (List SyntaxTree) :=
  ((f.prelude.decorators.filter (Marker.requires.marks aliases)).flatMap fun d => d.expression.arguments).mapM
    requirement

/-- The decorators that stay on a test. -/
def keptDecorators (aliases : List String) (ds : List Decorator) : List Decorator :=
  (Marker.strip aliases [.test, .shouldPanic, .requires] ds).1.filter fun d => !marksBinding d

/-- The kind of a test. -/
def testKind (aliases : List String) (f : Function) : Except Failure TestKind := do
  let result ← (resultType f.head).mapError Failure.literal
  match ← shouldPanic aliases f, result with
  | some _, some _ => violated .panicWithResult f.extent?
  | some expected, none => return .shouldPanic expected
  | none, some output => return .returnsResult output
  | none, none => return .standard

/-- Whether a method is an associated test. -/
def Function.isTest (aliases : List String) (f : Function) : Bool :=
  f.prelude.decorators.any (Marker.test.marksBare aliases)

/-- Checks an associated test and takes its markers off. -/
def AssociatedTest.read (aliases : List String) (f : Function) : Except Failure AssociatedTest := do
  if f.head.async.isSome then violated .asyncTest f.extent?
  if Naming.reserved.isPrefixOf f.name then violated .reservedTestName f.head.name.extent?
  if f.prelude.decorators.any marksAbstract || isStub f.body then violated .missingTestBody f.extent?
  let some takesType := takesType? f.head
    | violated (.testParameters f.name) f.head.parametersExtent?
  let kind ← testKind aliases f
  let requirements ← requirementsOf aliases f
  let function :=
    { f with prelude := { f.prelude with decorators := keptDecorators aliases f.prelude.decorators } }
  return { kind, requirements, function, takesType }

end Conformance
