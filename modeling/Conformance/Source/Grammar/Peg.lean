import Conformance.Source.Tree

/-!
# Grammars

A grammar gives for each of its symbols a parsing expression.  `Peg.run` reads tokens by such an expression:
choices are tried in order, repetition takes as much as it can, and what was read comes back as trees whose
leaves are exactly the tokens taken.
-/

namespace Conformance.Source

/-- What a single token has to be. -/
inductive Match where
  /-- An operator or keyword with this text. -/
  | word (text : String)
  /-- A name that is not a keyword. -/
  | name
  /-- Any token of the kind. -/
  | kind (k : TokenKind)
  deriving DecidableEq, Repr

/-- The words that cannot be names. -/
def keywords : List String :=
  ["False", "None", "True", "and", "as", "assert", "async", "await", "break", "class", "continue", "def",
   "del", "elif", "else", "except", "finally", "for", "from", "global", "if", "import", "in", "is", "lambda",
   "nonlocal", "not", "or", "pass", "raise", "return", "try", "while", "with", "yield"]

/-- Whether the token is what is asked for. -/
def Match.accepts (m : Match) (t : Token) : Bool :=
  match m with
  | word s => (t.kind == .operator || t.kind == .name) && t.text == s
  | name => t.kind == .name && !keywords.contains t.text
  | kind k => t.kind == k

/-- A group whose kind depends on what it holds. -/
inductive Shape where
  | parens
  | brackets
  | braces
  | subscript
  deriving DecidableEq, Repr

/-- The kind of a group with these children. -/
def Shape.kind (s : Shape) (ts : List SyntaxTree) : Kind :=
  let comma := ts.any (SyntaxTree.isOperator ",")
  let colon := ts.any (SyntaxTree.isOperator ":")
  let comp := ts.any (SyntaxTree.is .compFor)
  match s with
  | parens => if comp then .generator else if comma || ts.length ≤ 2 then .tuple else .paren
  | brackets => if comp then .listComp else .list
  | braces =>
    let pairs := colon || ts.any (SyntaxTree.isOperator "**") || ts.length ≤ 2
    if comp then (if pairs then .dictComp else .setComp) else if pairs then .dict else .set
  | subscript => if colon then .slice else .index

/-- A condition on what was read that goes beyond its tokens. -/
inductive Check where
  /-- A place that a value can be assigned to. -/
  | target
  /-- A single name, attribute or subscript, possibly in parentheses. -/
  | single
  /-- The same without parentheses. -/
  | annotatable
  /-- A place that can be deleted. -/
  | deletable
  /-- Parameters in a legal order. -/
  | parameters
  deriving DecidableEq, Repr

mutual

/-- Whether the tree is a place that a value can be assigned to (`starred` allows an unpacking star in a list
of places). -/
def SyntaxTree.assignable (starred : Bool) : SyntaxTree → Bool
  | .leaf t => Match.name.accepts t
  | .node k children =>
    match k, children with
    | .member, _ => true
    | .subscript, _ => true
    | .paren, [_, inner, _] => inner.assignable starred
    | .tuple, ts => assignableAll starred ts
    | .list, ts => assignableAll starred ts
    | .starred, [_, inner] => starred && inner.assignable starred
    | _, _ => false

/-- Whether all members of a list are places that a value can be assigned to. -/
def assignableAll (starred : Bool) : List SyntaxTree → Bool
  | [] => true
  | .leaf t :: ts =>
    ((t.kind == .operator && t.text != "...") || Match.name.accepts t) && assignableAll starred ts
  | .node k cs :: ts => SyntaxTree.assignable starred (.node k cs) && assignableAll starred ts

end

/-- Whether the tree is one name, attribute or subscript. -/
def SyntaxTree.isSingle (t : SyntaxTree) : Bool :=
  match t with
  | .leaf t => Match.name.accepts t
  | .node k _ => k == .member || k == .subscript

/-- Whether a parameter has a default. -/
def SyntaxTree.hasDefault (t : SyntaxTree) : Bool :=
  t.children.any (SyntaxTree.is .default)

/-- Whether parameters are in a legal order: before a star none without a default follows one with a
default, and a slash does not come first. -/
def legalParameters (ts : List SyntaxTree) : Bool :=
  let front := ts.takeWhile fun t => t.is .parameter || t.is .slash
  let plain := front.filter (SyntaxTree.is .parameter)
  let late := plain.dropWhile fun t => !t.hasDefault
  late.all SyntaxTree.hasDefault && !(front.head?.any (SyntaxTree.is .slash))

/-- Whether what was read passes the check. -/
def Check.holds (c : Check) (ts : List SyntaxTree) : Bool :=
  match c, ts with
  | target, [t] => t.assignable true
  | single, [t] => t.core.isSingle
  | annotatable, [t] => t.isSingle
  | deletable, [t] => t.assignable false
  | parameters, ts => legalParameters ts
  | _, _ => false

/-- A parsing expression over the symbols `σ`. -/
inductive Peg (σ : Type) where
  /-- One token. -/
  | tok (m : Match)
  /-- The expression of a symbol. -/
  | sym (s : σ)
  /-- One after the other. -/
  | seq (ps : List (Peg σ))
  /-- The first that succeeds. -/
  | alt (ps : List (Peg σ))
  /-- As often as possible. -/
  | many (p : Peg σ)
  /-- Succeeds if the expression would, and takes nothing. -/
  | ahead (p : Peg σ)
  /-- Succeeds if the expression would fail, and takes nothing. -/
  | never (p : Peg σ)
  /-- Succeeds at the end of the tokens. -/
  | stop
  /-- What was read, as a group of the kind. -/
  | node (k : Kind) (p : Peg σ)
  /-- What was read, as a group whose kind its content decides. -/
  | build (s : Shape) (p : Peg σ)
  /-- What was read, if it passes the check. -/
  | only (c : Check) (p : Peg σ)
  /-- A first part and then, as long as one of the steps succeeds, a group of the kind of the step that holds
  what came before and what the step read: operators that associate to the left. -/
  | extend (p : Peg σ) (steps : List (Kind × Peg σ))

/-- What reading gives: trees and the tokens that are left. -/
abbrev Read := Option (List SyntaxTree × List Token)

namespace Peg

variable {σ : Type}

/-- Reads the parts one after the other. -/
def runSeq (run : Peg σ → List Token → Read) : List (Peg σ) → List Token → Read
  | [], ts => some ([], ts)
  | p :: ps, ts =>
    match run p ts with
    | none => none
    | some (xs, rest) =>
      match runSeq run ps rest with
      | none => none
      | some (ys, rest) => some (xs ++ ys, rest)

/-- Reads by the first of the choices that succeeds. -/
def runAlt (run : Peg σ → List Token → Read) : List (Peg σ) → List Token → Read
  | [], _ => none
  | p :: ps, ts =>
    match run p ts with
    | some r => some r
    | none => runAlt run ps ts

/-- Reads as often as possible, at most `n` times and as long as tokens are taken. -/
def runMany (run : List Token → Read) : Nat → List Token → List SyntaxTree × List Token
  | 0, ts => ([], ts)
  | n + 1, ts =>
    match run ts with
    | none => ([], ts)
    | some (xs, rest) =>
      if rest.length < ts.length then
        let (ys, rest) := runMany run n rest
        (xs ++ ys, rest)
      else ([], ts)

/-- The first step that succeeds, with its kind. -/
def runStep (run : Peg σ → List Token → Read) : List (Kind × Peg σ) → List Token →
    Option (Kind × List SyntaxTree × List Token)
  | [], _ => none
  | (k, p) :: steps, ts =>
    match run p ts with
    | some (xs, rest) => some (k, xs, rest)
    | none => runStep run steps ts

/-- Goes on with steps after what has been read, at most `n` times. -/
def runExtend (run : Peg σ → List Token → Read) (steps : List (Kind × Peg σ)) :
    Nat → List SyntaxTree → List Token → List SyntaxTree × List Token
  | 0, xs, ts => (xs, ts)
  | n + 1, xs, ts =>
    match runStep run steps ts with
    | none => (xs, ts)
    | some (k, ys, rest) => runExtend run steps n [.node k (xs ++ ys)] rest

/-- Reads by a parsing expression.  The number bounds how deep expressions nest; running out of it counts as
a failure. -/
def run (rules : σ → Peg σ) : Nat → Peg σ → List Token → Read
  | 0, _, _ => none
  | n + 1, p, ts =>
    match p with
    | tok m =>
      match ts with
      | t :: rest => if m.accepts t then some ([.leaf t], rest) else none
      | [] => none
    | sym s => run rules n (rules s) ts
    | seq ps => runSeq (run rules n) ps ts
    | alt ps => runAlt (run rules n) ps ts
    | many p => some (runMany (run rules n p) ts.length ts)
    | ahead p => (run rules n p ts).map fun _ => ([], ts)
    | never p => if (run rules n p ts).isNone then some ([], ts) else none
    | stop => if ts.isEmpty then some ([], ts) else none
    | node k p => (run rules n p ts).map fun (xs, rest) => ([.node k xs], rest)
    | build s p => (run rules n p ts).map fun (xs, rest) => ([.node (s.kind xs) xs], rest)
    | only c p => (run rules n p ts).filter fun (xs, _) => c.holds xs
    | extend p steps => (run rules n p ts).map fun (xs, rest) => runExtend (run rules n) steps ts.length xs rest

/-! ## Derived expressions -/

/-- An operator or keyword. -/
def word (s : String) : Peg σ := tok (.word s)

/-- A name. -/
def name : Peg σ := tok .name

/-- Nothing at all. -/
def nothing : Peg σ := seq []

/-- Once or not at all. -/
def opt (p : Peg σ) : Peg σ := alt [p, nothing]

/-- At least once. -/
def some1 (p : Peg σ) : Peg σ := seq [p, many p]

/-- One or more with a comma between each two. -/
def commas (p : Peg σ) : Peg σ := seq [p, many (seq [word ",", p])]

/-- One or more with a comma between each two and possibly one more at the end. -/
def trailedCommas (p : Peg σ) : Peg σ := seq [p, many (seq [word ",", p]), opt (word ",")]

end Peg

end Conformance.Source
