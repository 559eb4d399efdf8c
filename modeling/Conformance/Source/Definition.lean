import Conformance.Source.Statement
import Conformance.Source.Reference

/-!
# Definitions

The parts of class and function heads, the small statements of a suite, and the stretch of text that a
definition covers: from its first keyword to the end of its innermost last small statement.
-/

namespace Conformance.Source

/-- The small statements of a line. -/
def SyntaxTree.smallStatements (line : SyntaxTree) : List SyntaxTree :=
  line.children.filter fun c => !c.isOperator ";"

/-- The base expressions and keywords of a class. -/
def ClassHead.bases (h : ClassHead) : List Argument :=
  match childOf? .bases h.rest with
  | some list => list.children.filterMap SyntaxTree.argument?
  | none => []

/-- The names of the type parameters that a class declares in its head. -/
def ClassHead.typeParameters (h : ClassHead) : List String :=
  match childOf? .typeParameters h.rest with
  | some list => (list.children.filter (SyntaxTree.is .typeParameter)).filterMap fun p =>
      (p.children.findSome? fun c => c.name?).map Token.text
  | none => []

/-- The parameters of a function, with their parentheses. -/
def FunctionHead.parameters (h : FunctionHead) : List SyntaxTree :=
  match childOf? .parameters h.rest with
  | some list => list.children
  | none => []

/-- The expression after the arrow of a function. -/
def FunctionHead.returns? (h : FunctionHead) : Option SyntaxTree :=
  match childOf? .returns h.rest with
  | some (.node _ [_, e]) => some e
  | _ => none

/-! ## Text -/

/-- A decorator as text, in the default style and without white space around it. -/
def Decorator.code (d : Decorator) : String :=
  Text.trim (String.join (d.chunks {} ""))

/-- A statement as text, in the default style and without white space around it. -/
def Statement.code (s : Statement) : String :=
  Text.trim (String.join (s.chunks {} ""))

/-! ## Places -/

/-- The last token of a line of small statements, not counting a semicolon after the last one. -/
def SyntaxTree.lastOfLine? (line : SyntaxTree) : Option Token :=
  line.smallStatements.getLast?.bind fun t => t.leaves.getLast?

mutual

/-- The last token of the innermost last small statement. -/
def Statement.lastToken? : Statement → Option Token
  | .simple _ body _ => body.lastOfLine?
  | .clause _ _ body => body.lastToken?
  | .ofClass _ _ body => body.lastToken?
  | .ofFunction _ _ body => body.lastToken?

/-- The last token of the innermost last small statement of a suite. -/
def Suite.lastToken? : Suite → Option Token
  | .inline body _ => body.lastOfLine?
  | .block _ _ body _ => lastTokenOf? body

/-- The last token of the last statement. -/
def lastTokenOf? : List Statement → Option Token
  | [] => none
  | [s] => s.lastToken?
  | _ :: s :: ss => lastTokenOf? (s :: ss)

end

/-- The stretch of text from one token to another. -/
def extentBetween? (first last : Token) : Option Extent := do
  let a ← first.extent?
  let b ← last.extent?
  return ⟨a.start, b.stop⟩

/-- The stretch of text of a class. -/
def ClassHead.extent? (h : ClassHead) (body : Suite) : Option Extent := do
  extentBetween? h.word (← body.lastToken?)

/-- The stretch of text of a function. -/
def FunctionHead.extent? (h : FunctionHead) (body : Suite) : Option Extent := do
  extentBetween? (h.async.getD h.word) (← body.lastToken?)

/-- The stretch of text of the parameters: from the first token after the opening parenthesis to the closing
one. -/
def FunctionHead.parametersExtent? (h : FunctionHead) : Option Extent := do
  let inside ← match h.parameters.flatMap SyntaxTree.leaves with
    | _ :: inside => some inside
    | [] => none
  let first ← inside.head?
  let last ← inside.getLast?
  return ⟨(← first.extent?).start, (← last.extent?).start⟩

/-- The stretch of text of a decorator. -/
def Decorator.extent? (d : Decorator) : Option Extent := do
  extentBetween? d.sign (← d.expression.leaves.getLast?)

/-- The stretch of text of a statement. -/
def Statement.extent? : Statement → Option Extent
  | .simple _ body _ => do
    extentBetween? (← body.leaves.head?) (← body.lastOfLine?)
  | .clause _ head body => do
    extentBetween? (← head.leaves.head?) (← body.lastToken?)
  | .ofClass _ head body => head.extent? body
  | .ofFunction _ head body => head.extent? body

end Conformance.Source
