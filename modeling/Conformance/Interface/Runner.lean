import Conformance.Interface.Basic
import Conformance.Source.Generated

/-!
# The hidden method

The tests of an interface are compiled into one class method that runs all of them for the class it is called
for.  It checks the requirements of the tests once, says how many tests there are, and then defines and runs
one test after the other.
-/

namespace Conformance

open Source

namespace Runner

/-- A helper of the generated code. -/
def helper (name : String) : SyntaxTree := (SyntaxTree.ofName Naming.helpers).dot name

/-- The implementing type. -/
def implementer : SyntaxTree := .ofName Naming.implementer

/-- `import tested_trait.runtime as …`. -/
def importHelpers : Statement :=
  .line (.node .importing [.ofWord "import", .ofName "tested_trait", .ofOperator ".", .ofWord "runtime",
    .ofWord "as", .ofName Naming.helpers])

/-- A line that prints a text. -/
def printing (s : String) : Statement :=
  .ofExpression ((SyntaxTree.ofName "print").apply [.ofText s])

/-- The requirements that are not among the texts seen, each text once. -/
def fresh (seen : List String) : List SyntaxTree → List SyntaxTree
  | [] => []
  | r :: rs => if seen.contains r.code then fresh seen rs else r :: fresh (seen ++ [r.code]) rs

/-- Being concrete, followed by the requirements of all tests without repetition. -/
def union (tests : List AssociatedTest) : List SyntaxTree :=
  let concrete := helper "Concrete"
  concrete :: fresh [concrete.code] (tests.flatMap AssociatedTest.requirements)

/-- What is printed before the tests of an interface are run. -/
def summary (interface : String) (count : Nat) : String :=
  "running " ++ count.repr ++ " test" ++ (if count == 1 then "" else "s") ++
    " for implementation of " ++ interface

/-- What is printed before a test is run. -/
def label (interface test : String) : String :=
  "test " ++ interface ++ "::" ++ test

/-- What the function of a test is called with. -/
def typeArguments (t : AssociatedTest) : List SyntaxTree :=
  if t.takesType then [implementer] else []

/-- The lines that run a test and look at its outcome. -/
def run (t : AssociatedTest) : List Statement :=
  let called := (SyntaxTree.ofName t.name).apply (typeArguments t)
  match t.kind with
  | .standard => [.ofExpression ((helper "expect_unit").apply [called, .ofText t.name])]
  | .returnsResult output =>
    [.line (.node .annotated
      [.ofName Naming.result, .ofSpaced ":", output.trailing " ", .ofSpaced "=", called]),
     .ofExpression ((helper "unwrap").apply [.ofName Naming.result])]
  | .shouldPanic expected =>
    let outcome := (helper "catch_unwind").apply (.ofName t.name :: typeArguments t)
    [.ofExpression ((helper "expect_panic").apply (outcome :: expected.toList))]

/-- The function of a test, with an empty line and its comments before it. -/
def nested (f : Function) : Statement :=
  let comments := f.prelude.lead.filter fun l => l.comment != ""
  f.statement.withLead (Line.empty :: comments)

/-- The lines for one test. -/
def block (interface : String) (t : AssociatedTest) : List Statement :=
  [nested t.function, printing (label interface t.name)] ++ run t

/-- The hidden method. -/
def method (interface : String) (tests : List AssociatedTest) : Statement :=
  .function ["classmethod"] Naming.hiddenMethod [Naming.implementer]
    ([importHelpers,
      .ofExpression ((helper "check_requirements").apply (implementer :: union tests)),
      printing (summary interface tests.length)] ++
     tests.flatMap (block interface))

end Runner

/-- The interface as a class: its body without the tests, and the hidden method. -/
def Interface.expanded (i : Interface) : Class :=
  { prelude := i.prelude, head := i.head,
    body := { i.block with body := i.block.body ++ [Runner.method i.head.name.text i.tests] }.suite }

/-- Expands what the marker of an interface stands on. -/
def expandInterface (aliases : List String) (args : List SyntaxTree) (item : Statement) :
    Except Failure Class :=
  return (← Interface.read aliases args item).expanded

end Conformance
