import Conformance.Text.Blank
import Conformance.Source.Grammar.Peg

/-!
# What an expression refers to

A dotted name is a name followed by attributes; parentheses around any part of it do not matter.  Other
expressions have no dotted name, but a subscript or a call still has the last segment of what it is made from.
-/

namespace Conformance.Source

namespace SyntaxTree

/-- The segments of a dotted name. -/
def segments? : SyntaxTree → Option (List String)
  | leaf t => if t.kind == .name then some [t.text] else none
  | node k children =>
    match k, children with
    | .paren, [_, inner, _] => inner.segments?
    | .member, [value, _, leaf t] => value.segments?.map (· ++ [t.text])
    | _, _ => none

/-- A dotted name as text. -/
def dotted? (t : SyntaxTree) : Option String :=
  t.segments?.map (".".intercalate ·)

/-- The short name of what an expression refers to, if one can be told. -/
def lastSegment? : SyntaxTree → Option String
  | leaf t => if t.kind == .name then some t.text else none
  | node k children =>
    match k, children with
    | .paren, [_, inner, _] => inner.lastSegment?
    | .member, [_, _, leaf t] => some t.text
    | .subscript, value :: _ => value.lastSegment?
    | .call, callee :: _ => callee.lastSegment?
    | _, _ => none

/-- The tree as text, in the default style and without white space around it. -/
def text (t : SyntaxTree) : String :=
  Text.trim (String.join (t.chunks {} ""))

/-- The text of an expression by itself. -/
def code (t : SyntaxTree) : String :=
  t.bare.text

mutual

/-- The names in an expression, from left to right, attributes included. -/
def names : SyntaxTree → List String
  | leaf t => if t.kind == .name && (t.text == "True" || t.text == "False" || t.text == "None" ||
      !keywords.contains t.text) then [t.text] else []
  | node .conversion _ => []
  | node _ children => namesAll children

/-- The names in some expressions. -/
def namesAll : List SyntaxTree → List String
  | [] => []
  | t :: ts => t.names ++ namesAll ts

end

end SyntaxTree

/-! ## Calls -/

/-- An argument of a call or a base of a class. -/
inductive Argument where
  | positional (value : SyntaxTree)
  | keyword (name : Token) (value : SyntaxTree)
  | starred (value : SyntaxTree)
  | doubleStarred (value : SyntaxTree)
  deriving Repr, Inhabited

/-- The argument a tree stands for. -/
def SyntaxTree.argument? : SyntaxTree → Option Argument
  | .node .arg (value :: _) => some (.positional value)
  | .node .keywordArg (.leaf name :: _ :: value :: _) => some (.keyword name value)
  | .node .starArg (_ :: value :: _) => some (.starred value)
  | .node .doubleStarArg (_ :: value :: _) => some (.doubleStarred value)
  | _ => none

namespace SyntaxTree

/-- Whether the expression is a call. -/
def isCall (t : SyntaxTree) : Bool :=
  t.core.is .call

/-- What is called; an expression that is no call is taken as it is. -/
def callee (t : SyntaxTree) : SyntaxTree :=
  match t.core with
  | node .call (f :: _) => f
  | _ => t

/-- The arguments of a call, each with its comma; none if the expression is no call. -/
def arguments (t : SyntaxTree) : List SyntaxTree :=
  match t.core with
  | node .call (_ :: rest) => rest.filter fun a => a.argument?.isSome
  | _ => []

/-- The stretch of text of an argument, without its comma. -/
def argumentExtent? (t : SyntaxTree) : Option Extent :=
  (node .arg (t.children.filter fun c => !c.isOperator ",")).extent?

end SyntaxTree

end Conformance.Source
