import Conformance.Text.Quoted
import Conformance.Source.Definition

/-!
# Generated code

Trees and statements that no text was read for.  A comma or colon brings one space with it, an expression that
is taken from a text loses the white space after it, and every line ends with the usual line break.
-/

namespace Conformance.Source

/-- A space after a token. -/
def spaced : Trivia := { blank := " " }

namespace SyntaxTree

/-- A name. -/
def ofName (s : String) : SyntaxTree := leaf { kind := .name, text := s }

/-- An operator or bracket. -/
def ofOperator (s : String) : SyntaxTree := leaf { kind := .operator, text := s }

/-- Text between quotes. -/
def ofText (s : String) : SyntaxTree := leaf { kind := .string, text := Text.quoted s }

/-- A keyword with a space after it. -/
def ofWord (s : String) : SyntaxTree := leaf { kind := .name, text := s, after := spaced }

/-- An operator with a space after it. -/
def ofSpaced (s : String) : SyntaxTree := leaf { kind := .operator, text := s, after := spaced }

/-- An attribute of an expression. -/
def dot (value : SyntaxTree) (name : String) : SyntaxTree :=
  node .member [value.bare, ofOperator ".", ofName name]

/-- Positional arguments. -/
def ofArguments : List SyntaxTree → List SyntaxTree
  | [] => []
  | [e] => [node .arg [e.bare]]
  | e :: f :: es => node .arg [e.bare, ofSpaced ","] :: ofArguments (f :: es)

/-- A call with positional arguments. -/
def apply (f : SyntaxTree) (args : List SyntaxTree) : SyntaxTree :=
  node .call ([f.bare, ofOperator "("] ++ ofArguments args ++ [ofOperator ")"])

/-- The expression in parentheses, unless it can be followed by a dot as it stands. -/
def guarded (e : SyntaxTree) : SyntaxTree :=
  match e with
  | leaf t => if t.kind == .name then e else node .paren [ofOperator "(", e.bare, ofOperator ")"]
  | node k children =>
    if k == .member || k == .subscript || k == .call || children.head?.any (isOperator "(") then e
    else node .paren [ofOperator "(", e.bare, ofOperator ")"]

end SyntaxTree

namespace Statement

/-- A line with one small statement. -/
def line (small : SyntaxTree) : Statement := .simple [] (.node .simple [small]) {}

/-- A line with an expression. -/
def ofExpression (e : SyntaxTree) : Statement := line (.node .expression [e])

/-- Lines before a statement, in place of those it has. -/
def withLead (lead : List Line) : Statement → Statement
  | simple _ body stop => simple lead body stop
  | clause _ head body => clause lead head body
  | ofClass prelude head body => ofClass { prelude with lead } head body
  | ofFunction prelude head body => ofFunction { prelude with lead } head body

/-- A function with an empty line before it, whose parameters are plain names. -/
def function (decorators : List String) (name : String) (parameters : List String) (body : List Statement) :
    Statement :=
  let parameter (p : String) : SyntaxTree := .node .parameter [.ofName p]
  let decorator (d : String) : Decorator :=
    { sign := { kind := .operator, text := "@" }, expression := .ofName d }
  .ofFunction
    { lead := [Line.empty], decorators := decorators.map decorator }
    { word := { kind := .name, text := "def", after := spaced },
      name := { kind := .name, text := name },
      rest := [.node .parameters ([.ofOperator "("] ++ parameters.map parameter ++ [.ofOperator ")"]),
        .ofOperator ":"] }
    (.block {} none body [])

end Statement

end Conformance.Source
