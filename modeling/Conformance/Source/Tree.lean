import Conformance.Source.Token

/-!
# Trees

The tokens of a logical line, grouped by the grammar.  Every token of the line is a leaf, in the order of
the text, so `SyntaxTree.chunks` renders a tree by rendering its leaves.

White space belongs to the leaf before it.  The white space after the last leaf is not part of what the
tree says, and `SyntaxTree.bare` drops it.
-/

namespace Conformance.Source

/-- What a group of tokens is. -/
inductive Kind where
  -- expressions
  | member | call | subscript | index | slice
  | arg | keywordArg | starArg | doubleStarArg
  | paren | tuple | list | set | dict | listComp | setComp | dictComp | generator | compFor
  | starred | unary | binary | boolean | comparison | conditional | lambda | awaiting | yielding | walrus
  | strings | template | field | conversion
  -- parameters
  | parameters | parameter | slash | bareStar | starParameter | doubleStarParameter
  | hint | default | returns | typeParameters | typeParameter
  -- patterns
  | pattern
  -- small statements
  | expression | assign | annotated | augmented | typeAlias | importing | statement
  -- lines
  | simple | decorator | classHead | functionHead | bases
  | ifHead | elifHead | elseHead | whileHead | forHead | tryHead | exceptHead | exceptStarHead | finallyHead
  | withHead | matchHead | caseHead
  deriving DecidableEq, Repr, Inhabited

/-- A token, or tokens that belong together. -/
inductive SyntaxTree where
  | leaf (token : Token)
  | node (kind : Kind) (children : List SyntaxTree)
  deriving Repr, Inhabited

namespace SyntaxTree

mutual

/-- The tokens of a tree, in the order of the text. -/
def leaves : SyntaxTree → List Token
  | leaf t => [t]
  | node _ children => leavesAll children

/-- The tokens of some trees. -/
def leavesAll : List SyntaxTree → List Token
  | [] => []
  | t :: ts => t.leaves ++ leavesAll ts

end

theorem leavesAll_append (xs ys : List SyntaxTree) :
    leavesAll (xs ++ ys) = leavesAll xs ++ leavesAll ys := by
  induction xs with
  | nil => rfl
  | cons x xs ih => simp [leavesAll, ih]

mutual

/-- The tree with its last token changed. -/
def mapLast (f : Token → Token) : SyntaxTree → SyntaxTree
  | leaf t => leaf (f t)
  | node k children => node k (mapLastAll f children)

/-- The trees with the last token of the last one changed. -/
def mapLastAll (f : Token → Token) : List SyntaxTree → List SyntaxTree
  | [] => []
  | [t] => [t.mapLast f]
  | t :: u :: ts => t :: mapLastAll f (u :: ts)

end

/-- The tree without the white space after it. -/
def bare (t : SyntaxTree) : SyntaxTree :=
  t.mapLast fun tok => { tok with after := {} }

/-- The tree with just these blanks after it. -/
def trailing (blank : String) (t : SyntaxTree) : SyntaxTree :=
  t.mapLast fun tok => { tok with after := { blank } }

def chunks (style : Style) (indent : String) (t : SyntaxTree) : List String :=
  t.leaves.flatMap (Token.chunks style indent)

/-- The children of a node; a leaf has none. -/
def children : SyntaxTree → List SyntaxTree
  | leaf _ => []
  | node _ ts => ts

/-- Whether the tree is a node of the kind. -/
def is (k : Kind) : SyntaxTree → Bool
  | leaf _ => false
  | node k' _ => k == k'

/-- Whether the tree is an operator with the text. -/
def isOperator (s : String) : SyntaxTree → Bool
  | leaf t => t.kind == .operator && t.text == s
  | node .. => false

/-- The expression inside any enclosing parentheses. -/
def core : SyntaxTree → SyntaxTree
  | leaf t => leaf t
  | node k children =>
    match k, children with
    | .paren, [_, inner, _] => inner.core
    | _, _ => node k children

/-- The name the tree consists of, with the parentheses around it ignored. -/
def name? (t : SyntaxTree) : Option Token :=
  match t.core with
  | leaf tok => if tok.kind == .name then some tok else none
  | node .. => none

/-- The members of a bracketed or comma-separated list: the children that are no punctuation. -/
def items (t : SyntaxTree) : List SyntaxTree :=
  t.children.filter fun c =>
    !(c.isOperator "(" || c.isOperator ")" || c.isOperator "[" || c.isOperator "]" || c.isOperator ",")

/-- The stretch of text from the first to the last token, if both were read from a text. -/
def extent? (t : SyntaxTree) : Option Extent := do
  let first ← t.leaves.head?
  let last ← t.leaves.getLast?
  let a ← first.extent?
  let b ← last.extent?
  return ⟨a.start, b.stop⟩

end SyntaxTree

/-- The first child of a kind. -/
def childOf? (k : Kind) (ts : List SyntaxTree) : Option SyntaxTree :=
  ts.find? (SyntaxTree.is k)

end Conformance.Source
