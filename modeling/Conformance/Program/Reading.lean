import Conformance.Program.Basic
import Conformance.Source.Definition
import Conformance.Source.Literal

/-!
# Programs from source

A tree is read from its leaves upwards: the children of a node are read first, and the kind of the node says
what they form together.  White space and comments play no part.
-/

namespace Conformance

open Source

/-! ## Literals -/

/-- Characters as a number in a base. -/
def digitsValue (base : Nat) (cs : List Char) : Option Nat :=
  cs.foldl (fun acc c => do
    let d ← hexDigit? c
    if d < base then return (← acc) * base + d else none) (some 0)

/-- The value of a whole number. -/
def numberValue? (s : String) : Option Nat :=
  match s.toList.filter (· != '_') with
  | '0' :: c :: cs =>
    if c == 'x' || c == 'X' then digitsValue 16 cs
    else if c == 'o' || c == 'O' then digitsValue 8 cs
    else if c == 'b' || c == 'B' then digitsValue 2 cs
    else digitsValue 10 (c :: cs)
  | cs => digitsValue 10 cs

/-- The constant that a string literal stands for. -/
def stringConstant? (s : String) : Option Constant :=
  match Literal.evaluate s with
  | .ok (.text points) => some (.text (String.ofList (points.map Char.ofNat)))
  | .ok (.bytes values) => some (.bytes (values.map UInt8.ofNat))
  | .error _ => none

/-- The expression that a single token forms. -/
def Expr.ofToken (t : Token) : Expr :=
  match t.kind with
  | .name =>
    if t.text == "None" then .constant .none
    else if t.text == "True" then .constant (.bool true)
    else if t.text == "False" then .constant (.bool false)
    else .name t.text
  | .number =>
    match numberValue? t.text with
    | some n => .constant (.int n)
    | none => .unsupported
  | .string =>
    match stringConstant? t.text with
    | some c => .constant c
    | none => .unsupported
  | .operator => if t.text == "..." then .constant .ellipsis else .unsupported
  | _ => .unsupported

/-! ## Expressions -/

/-- What a tree contributes to the node above it. -/
inductive Part where
  | token (t : Token)
  | expression (e : Expr)
  | positional (e : Expr)
  | keyword (name : String) (e : Expr)

/-- A part as an expression. -/
def Part.expr : Part → Expr
  | token t => .ofToken t
  | expression e | positional e | keyword _ e => e

/-- Whether the part is a token with the text. -/
def Part.isWord (s : String) : Part → Bool
  | token t => t.text == s && t.kind != .string
  | _ => false

/-- The members of a list in brackets. -/
def Part.items (ps : List Part) : List Expr :=
  (ps.filter fun p => !(["(", ")", "[", "]", ","].any fun s => p.isWord s)).map Part.expr

/-- The positional arguments among the parts of a call. -/
def Part.positionals (ps : List Part) : List Expr :=
  ps.filterMap fun
    | positional e => some e
    | _ => none

/-- The keyword arguments among the parts of a call. -/
def Part.keywords (ps : List Part) : List (String × Expr) :=
  ps.filterMap fun
    | keyword n e => some (n, e)
    | _ => none

/-- The entries of a dictionary from the expressions between its colons and commas. -/
def pairUp : List Expr → List (Expr × Expr)
  | k :: v :: rest => (k, v) :: pairUp rest
  | _ => []

/-- Two literals of one kind next to each other. -/
def joinConstants : Expr → Expr → Expr
  | .constant (.text a), .constant (.text b) => .constant (.text (a ++ b))
  | .constant (.bytes a), .constant (.bytes b) => .constant (.bytes (a ++ b))
  | _, _ => .unsupported

/-- The comparison that the words between two operands spell. -/
def comparison? (words : List Part) : Option Comparison :=
  match words with
  | [w] =>
    if w.isWord "==" then some .equal
    else if w.isWord "!=" then some .different
    else if w.isWord "is" then some .same
    else none
  | [v, w] => if v.isWord "is" && w.isWord "not" then some .other else none
  | _ => none

/-- The comparison of the first part with the last one. -/
def comparing : List Part → Expr
  | left :: rest =>
    match left.expr, rest.getLast?, comparison? rest.dropLast with
    | .compare .., _, _ => .unsupported
    | l, some right, some c => .compare c l right.expr
    | _, _, _ => .unsupported
  | [] => .unsupported

/-- What the parts of a node form. -/
def Part.build (k : Kind) (ps : List Part) : Part :=
  match k, ps with
  | .arg, p :: _ => positional p.expr
  | .keywordArg, token name :: _ :: value :: _ => keyword name.text value.expr
  | .paren, [_, p, _] => expression p.expr
  | .member, [value, _, token name] => expression (.member value.expr name.text)
  | .call, callee :: rest =>
    if rest.all fun p => match p with
        | expression _ => false
        | _ => true
    then expression (.call callee.expr (positionals rest) (keywords rest))
    else expression .unsupported
  | .index, [p] => expression p.expr
  | .subscript, value :: rest =>
    match items rest, rest.any (isWord ",") with
    | [key], false => expression (.index value.expr key)
    | keys, _ => expression (.index value.expr (.tuple keys))
  | .tuple, ps => expression (.tuple (items ps))
  | .list, ps => expression (.list (items ps))
  | .dict, ps =>
    expression (.dict (pairUp ((ps.filter fun p =>
      !(["\x7b", "\x7d", ":", ","].any fun s => p.isWord s)).map expr)))
  | .unary, [sign, p] =>
    if sign.isWord "-" then expression (.negative p.expr)
    else if sign.isWord "not" then expression (.not p.expr)
    else expression .unsupported
  | .comparison, ps => expression (comparing ps)
  | .strings, [a, b] => expression (joinConstants a.expr b.expr)
  | _, _ => expression .unsupported

mutual

/-- The part that a tree forms. -/
def Part.ofTree : SyntaxTree → Part
  | .leaf t => .token t
  | .node k children => .build k (ofTrees children)

/-- The parts that some trees form. -/
def Part.ofTrees : List SyntaxTree → List Part
  | [] => []
  | t :: ts => Part.ofTree t :: Part.ofTrees ts

end

/-- The expression that a tree stands for. -/
def Expr.ofTree (t : SyntaxTree) : Expr := (Part.ofTree t).expr

/-! ## Small statements -/

/-- The names of a dotted path at the front of some tokens, and the tokens after it. -/
def dottedPath : List Token → List String × List Token
  | a :: dot :: rest =>
    if dot.text == "." then
      let (path, rest) := dottedPath rest
      (a.text :: path, rest)
    else ([a.text], dot :: rest)
  | [a] => ([a.text], [])
  | [] => ([], [])

/-- Imported names with the names they are bound to. -/
def importedPairs : List Token → List (String × String)
  | a :: word :: b :: rest =>
    if word.text == "as" then (a.text, b.text) :: importedPairs rest
    else (a.text, a.text) :: importedPairs (word :: b :: rest)
  | a :: rest => (a.text, a.text) :: importedPairs rest
  | [] => []

/-- Imported modules, separated by commas; `fuel` bounds their number. -/
def importedModules : Nat → List Token → List Stmt
  | _, [] => []
  | 0, _ => [.unsupported]
  | fuel + 1, ts =>
    match dottedPath ts with
    | (path, word :: name :: rest) =>
      if word.text == "as" then .importing path (some name.text) :: importedModules fuel (rest.drop 1)
      else .importing path none :: importedModules fuel (name :: rest)
    | (path, _) => [.importing path none]

/-- An import. -/
def Stmt.ofImport (ts : List Token) : List Stmt :=
  match ts with
  | word :: rest =>
    if word.text == "import" then importedModules rest.length rest
    else
      let (path, rest) := dottedPath rest
      let names := (rest.drop 1).filter fun t => !(t.text == "(" || t.text == ")" || t.text == ",")
      if names.any fun t => t.text == "*" then [.unsupported] else [.importingFrom path (importedPairs names)]
  | [] => [.unsupported]

/-- A statement that starts with a keyword. -/
def Stmt.ofKeyword (children : List SyntaxTree) : Stmt :=
  match children with
  | .leaf word :: rest =>
    match word.text, rest with
    | "pass", [] => .pass
    | "return", [] => .returning none
    | "return", [e] => .returning (some (.ofTree e))
    | "raise", [] => .raising none
    | "raise", [e] => .raising (some (.ofTree e))
    | "assert", [e] => .asserting (.ofTree e) none
    | "assert", [e, _, m] => .asserting (.ofTree e) (some (.ofTree m))
    | _, _ => .unsupported
  | _ => .unsupported

/-- The names that values are assigned to, if they are all plain names. -/
def plainNames? (ts : List SyntaxTree) : Option (List String) :=
  ts.mapM fun t => t.name?.map Token.text

/-- An assignment. -/
def Stmt.ofAssignment (children : List SyntaxTree) : Stmt :=
  let parts := children.filter fun c => !c.isOperator "="
  match parts.getLast?, plainNames? parts.dropLast with
  | some value, some names => .assign names (.ofTree value)
  | _, _ => .unsupported

/-- The statements that a small statement stands for. -/
def Stmt.ofSmall : SyntaxTree → List Stmt
  | .node .expression [e] => [.eval (.ofTree e)]
  | .node .statement children => [.ofKeyword children]
  | .node .assign children => [.ofAssignment children]
  | .node .annotated [.leaf n, _, hint] => [.annotate n.text (.ofTree hint) none]
  | .node .annotated [.leaf n, _, hint, _, value] => [.annotate n.text (.ofTree hint) (some (.ofTree value))]
  | .node .importing children => Stmt.ofImport (SyntaxTree.leavesAll children)
  | _ => [.unsupported]

/-- The statements on a line. -/
def Stmt.ofLine (line : SyntaxTree) : List Stmt :=
  line.smallStatements.flatMap ofSmall

/-! ## Definitions -/

/-- The expression after the sign of a hint or default. -/
def expressionAfterSign? (k : Kind) (children : List SyntaxTree) : Option Expr :=
  match childOf? k children with
  | some (.node _ [_, e]) => some (.ofTree e)
  | _ => none

/-- The first name among some trees. -/
def firstName (children : List SyntaxTree) : String :=
  ((children.findSome? fun c => c.name?).map Token.text).getD ""

/-- The parameters that trees stand for; after a star, a name can only be given by keyword. -/
def Parameter.ofTrees (starred : Bool) : List SyntaxTree → List Parameter
  | [] => []
  | .node .parameter cs :: ts =>
    { name := firstName cs, kind := if starred then .keywordOnly else .plain,
      hint := expressionAfterSign? .hint cs, default := expressionAfterSign? .default cs } :: ofTrees starred ts
  | .node .bareStar _ :: ts => ofTrees true ts
  | .node .starParameter cs :: ts =>
    { name := firstName cs, kind := .rest, hint := expressionAfterSign? .hint cs } :: ofTrees true ts
  | .node .doubleStarParameter cs :: ts =>
    { name := firstName cs, kind := .restNamed, hint := expressionAfterSign? .hint cs } :: ofTrees starred ts
  | _ :: ts => ofTrees starred ts

/-- The head of a function. -/
def Signature.ofHead (h : FunctionHead) : Signature :=
  { name := h.name.text,
    parameters := Parameter.ofTrees false h.parameters,
    returns := h.returns?.map Expr.ofTree }

/-- The positional base expressions of a class. -/
def positionalBases (args : List Argument) : List Expr :=
  args.map fun
    | .positional e => .ofTree e
    | _ => .unsupported

/-- The keyword arguments in the head of a class. -/
def namedBases (args : List Argument) : List (String × Expr) :=
  args.filterMap fun
    | .keyword n e => some (n.text, .ofTree e)
    | _ => none

/-- Whether an argument is given by keyword. -/
def Source.Argument.isKeyword : Argument → Bool
  | .keyword .. => true
  | _ => false

mutual

/-- The program of a statement. -/
def Stmt.ofStatement : Statement → List Stmt
  | .simple _ body _ => ofLine body
  | .clause .. => [.unsupported]
  | .ofFunction prelude head body =>
    if head.async.isSome then [.unsupported]
    else [.define (prelude.decorators.map fun d => .ofTree d.expression) (.ofHead head) (ofSuite body)]
  | .ofClass prelude head body =>
    [.defineClass (prelude.decorators.map fun d => .ofTree d.expression) head.name.text
      (positionalBases (head.bases.filter fun a => !a.isKeyword)) (namedBases head.bases) (ofSuite body)]

/-- The program of a suite. -/
def Stmt.ofSuite : Suite → List Stmt
  | .inline body _ => ofLine body
  | .block _ _ body _ => ofStatements body

/-- The program of some statements. -/
def Stmt.ofStatements : List Statement → List Stmt
  | [] => []
  | s :: ss => Stmt.ofStatement s ++ Stmt.ofStatements ss

end

end Conformance
