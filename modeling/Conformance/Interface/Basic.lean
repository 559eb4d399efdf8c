import Conformance.Interface.Test

/-!
# Interfaces

An interface is a class whose associated tests are taken out of its body.  The names of the tests have to
differ.
-/

namespace Conformance

open Source

/-- A class with its prelude. -/
structure Class where
  prelude : Prelude
  head : ClassHead
  body : Suite

namespace Class

def name (c : Class) : String := c.head.name.text

def statement (c : Class) : Statement := .ofClass c.prelude c.head c.body

def extent? (c : Class) : Option Extent := c.head.extent? c.body

end Class

/-- The class a statement defines. -/
def Source.Statement.class? : Statement → Option Class
  | .ofClass prelude head body => some { prelude, head, body }
  | _ => none

/-- The function a statement defines. -/
def Source.Statement.function? : Statement → Option Function
  | .ofFunction prelude head body => some { prelude, head, body }
  | _ => none

/-- A block: what stands after the colon, its indentation, its statements and the lines after them. -/
structure Block where
  opening : LineEnd := {}
  indent : Option String := none
  body : List Statement
  footer : List Line := []

def Block.suite (b : Block) : Suite := .block b.opening b.indent b.body b.footer

/-- A line of small statements by itself.  A semicolon at its end keeps the blanks after it. -/
def ownLine (body : SyntaxTree) : Statement :=
  let last := body.children.getLast?.any (SyntaxTree.isOperator ";")
  .simple [] (if last then body else body.bare) {}

/-- An interface without its tests, and the tests. -/
structure Interface where
  prelude : Prelude
  head : ClassHead
  block : Block
  tests : List AssociatedTest

/-- The head of a class whose body becomes a block, and that block.  A body on the line of the head becomes a
line of its own. -/
def Class.asBlock (c : Class) : ClassHead × Block :=
  match c.body with
  | .block opening indent body footer => (c.head, { opening, indent, body, footer })
  | .inline body _ =>
    ({ c.head with rest := SyntaxTree.mapLastAll (fun t => { t with after := {} }) c.head.rest },
      { body := [ownLine body] })

/-- The associated test a statement is, before its rules are checked. -/
def test? (aliases : List String) (s : Statement) : Option Function :=
  s.function?.filter (Function.isTest aliases)

/-- The first test whose name an earlier test has, with the first test of that name. -/
def firstDuplicate? (seen : List AssociatedTest) :
    List AssociatedTest → Option (AssociatedTest × AssociatedTest)
  | [] => none
  | t :: ts =>
    match seen.find? fun s => s.name == t.name with
    | some first => some (first, t)
    | none => firstDuplicate? (seen ++ [t]) ts

/-- Separates the associated tests of a class from the rest of its body. -/
def Interface.ofClass (aliases : List String) (c : Class) : Except Failure Interface := do
  let (head, block) := c.asBlock
  let tests ← (block.body.filterMap (test? aliases)).mapM (AssociatedTest.read aliases)
  match firstDuplicate? [] tests with
  | some (first, second) =>
    violated (.duplicateTest second.name) second.function.head.name.extent?
      [("`" ++ second.name ++ "` first defined here", first.function.head.name.extent?)]
  | none =>
    let items := block.body.filter fun s => (test? aliases s).isNone
    return { prelude := c.prelude, head, block := { block with body := items }, tests }

/-- Reads an interface from what the marker stands on and the marker's arguments. -/
def Interface.read (aliases : List String) (args : List SyntaxTree) (item : Statement) :
    Except Failure Interface := do
  if let first :: _ := args then violated .interfaceArguments first.argumentExtent?
  let some c := item.class? | violated .notInterface item.extent?
  Interface.ofClass aliases c

end Conformance
