import Conformance.Source.Tree

/-!
# Statements

A statement is a line of small statements, a clause (the head of a compound statement with its suite), or the
definition of a class or a function with its decorators.  The clauses of one compound statement, such as `if`
and `else`, follow each other in the list of their block.  A module renders to the chunks of its statements
and of the lines after them.
-/

namespace Conformance.Source

/-- A decorator with the lines before it.  The lines before the first decorator belong to the definition. -/
structure Decorator where
  lead : List Line := []
  sign : Token
  expression : SyntaxTree
  stop : LineEnd := {}
  deriving Repr, Inhabited

/-- What stands before the head of a definition. -/
structure Prelude where
  lead : List Line := []
  decorators : List Decorator := []
  /-- The lines between the last decorator and the head. -/
  gap : List Line := []
  deriving Repr, Inhabited

/-- The head of a class: `class`, the name, and the rest up to the colon. -/
structure ClassHead where
  word : Token
  name : Token
  rest : List SyntaxTree
  deriving Repr, Inhabited

/-- The head of a function: `async` or not, `def`, the name, and the rest up to the colon. -/
structure FunctionHead where
  async : Option Token := none
  word : Token
  name : Token
  rest : List SyntaxTree
  deriving Repr, Inhabited

mutual

/-- A statement, or one clause of a compound statement. -/
inductive Statement where
  | simple (lead : List Line) (body : SyntaxTree) (stop : LineEnd)
  | clause (lead : List Line) (head : SyntaxTree) (body : Suite)
  | ofClass (prelude : Prelude) (head : ClassHead) (body : Suite)
  | ofFunction (prelude : Prelude) (head : FunctionHead) (body : Suite)

/-- What stands under a head: small statements on the same line, or a block.  The indentation of a block is
`none` if it is the usual one. -/
inductive Suite where
  | inline (body : SyntaxTree) (stop : LineEnd)
  | block (opening : LineEnd) (indent : Option String) (body : List Statement) (footer : List Line)

end

deriving instance Repr for Statement
deriving instance Repr for Suite

instance : Inhabited Suite := ⟨.block {} none [] []⟩
instance : Inhabited Statement := ⟨.simple [] default {}⟩

/-- A whole text. -/
structure Module where
  style : Style := {}
  body : List Statement
  footer : List Line := []
  /-- Whether the last line of the text ends with a line break. -/
  ended : Bool := true
  deriving Inhabited

/-! ## Rendering -/

def linesChunks (style : Style) (indent : String) (lines : List Line) : List String :=
  lines.flatMap (Line.chunks style indent)

def treesChunks (style : Style) (indent : String) (trees : List SyntaxTree) : List String :=
  trees.flatMap (SyntaxTree.chunks style indent)

def Decorator.chunks (style : Style) (indent : String) (d : Decorator) : List String :=
  linesChunks style indent d.lead ++ chunk indent ++ d.sign.chunks style indent ++
    d.expression.chunks style indent ++ d.stop.chunks style

def Prelude.chunks (style : Style) (indent : String) (p : Prelude) : List String :=
  linesChunks style indent p.lead ++ p.decorators.flatMap (Decorator.chunks style indent) ++
    linesChunks style indent p.gap ++ chunk indent

def ClassHead.chunks (style : Style) (indent : String) (h : ClassHead) : List String :=
  h.word.chunks style indent ++ h.name.chunks style indent ++ treesChunks style indent h.rest

def FunctionHead.chunks (style : Style) (indent : String) (h : FunctionHead) : List String :=
  (h.async.toList ++ [h.word, h.name]).flatMap (Token.chunks style indent) ++ treesChunks style indent h.rest

mutual

def Statement.chunks (style : Style) (indent : String) : Statement → List String
  | .simple lead body stop =>
    linesChunks style indent lead ++ chunk indent ++ body.chunks style indent ++ stop.chunks style
  | .clause lead head body =>
    linesChunks style indent lead ++ chunk indent ++ head.chunks style indent ++ body.chunks style indent
  | .ofClass prelude head body =>
    prelude.chunks style indent ++ head.chunks style indent ++ body.chunks style indent
  | .ofFunction prelude head body =>
    prelude.chunks style indent ++ head.chunks style indent ++ body.chunks style indent

def Suite.chunks (style : Style) (indent : String) : Suite → List String
  | .inline body stop => body.chunks style indent ++ stop.chunks style
  | .block opening own body footer =>
    let inner := indent ++ own.getD style.indent
    opening.chunks style ++ statementsChunks style inner body ++ linesChunks style inner footer

def statementsChunks (style : Style) (indent : String) : List Statement → List String
  | [] => []
  | s :: ss => s.chunks style indent ++ statementsChunks style indent ss

end

/-- The text of a module.  A text whose last line is not ended gives back the line break its last statement
or line brings along. -/
def Module.render (m : Module) : String :=
  let chunks := statementsChunks m.style "" m.body ++ linesChunks m.style "" m.footer
  String.join (if m.ended then chunks else chunks.dropLast)

/-- The text of some statements by themselves, in the default style. -/
def renderStatements (ss : List Statement) : String :=
  String.join (statementsChunks {} "" ss)

end Conformance.Source
