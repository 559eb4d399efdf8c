import Conformance.Source.Grammar.Pattern

/-!
# Lines

A logical line holds small statements separated by semicolons, or the head of a compound statement, possibly
with small statements after its colon.  `readLine?` reads a whole line.
-/

namespace Conformance.Source.Grammar

open Peg Nonterminal

/-- The right side of an assignment. -/
def rightSide : E := alt [sym yielding, sym starExpressions]

/-- An annotated place, with or without a value. -/
def annotatedAssignment : E :=
  node .annotated (seq [only .annotatable (sym primary), word ":", sym expression,
    opt (seq [word "=", rightSide])])

/-- Places, each with an equals sign, and a value. -/
def assignment : E :=
  node .assign (seq [some1 (seq [sym starTargets, word "="]), rightSide, never (word "=")])

/-- The operators that change a place in passing. -/
def augmentedOperators : List String :=
  ["+=", "-=", "*=", "@=", "/=", "%=", "&=", "|=", "^=", "<<=", ">>=", "**=", "//="]

/-- A place, an operator and a value. -/
def augmentedAssignment : E :=
  node .augmented (seq [only .single (sym primary), alt (augmentedOperators.map word), rightSide])

/-- `as name`, if it is there. -/
def asName : E := opt (seq [word "as", name])

/-- What is imported from a module. -/
def importedNames : E :=
  let one : E := seq [name, asName]
  alt [seq [word "(", trailedCommas one, word ")"], seq [commas one, never (word ",")], word "*"]

/-- `import` and `from … import`. -/
def importing : E :=
  let dot : E := alt [word ".", word "..."]
  node .importing (alt [
    seq [word "import", commas (seq [dotted, asName])],
    seq [word "from", alt [seq [many dot, dotted], some1 dot], word "import", importedNames]])

/-- The statements that start with a keyword. -/
def keywordStatement : E :=
  node .statement (alt [
    word "pass", word "break", word "continue",
    seq [word "return", opt (sym starExpressions)],
    seq [word "raise", opt (seq [sym expression, opt (seq [word "from", sym expression])])],
    seq [word "del", trailedCommas (only .deletable (sym primary)), alt [ahead (word ";"), stop]],
    seq [word "assert", sym expression, opt (seq [word ",", sym expression])],
    seq [word "global", commas name],
    seq [word "nonlocal", commas name]])

/-- `type name = value`. -/
def typeAlias : E :=
  node .typeAlias (seq [word "type", name, opt (sym typeParameters), word "=", sym expression])

/-- The items of a `with` head, in parentheses or not. -/
def withItems : E :=
  alt [seq [word "(", trailedCommas (sym withItem), word ")", word ":"],
    seq [commas (sym withItem), word ":"]]

/-- The heads of compound statements, except the ones that start with a soft keyword. -/
def head : E :=
  alt [
    node .classHead (seq [word "class", name, opt (sym typeParameters),
      opt (node .bases (seq [word "(", sym arguments, word ")"])), word ":"]),
    node .functionHead (seq [opt (word "async"), word "def", name, opt (sym typeParameters),
      node .parameters (seq [word "(", sym parameters, word ")"]),
      opt (node .returns (seq [word "->", sym expression])), word ":"]),
    node .ifHead (seq [word "if", sym namedExpression, word ":"]),
    node .elifHead (seq [word "elif", sym namedExpression, word ":"]),
    node .elseHead (seq [word "else", word ":"]),
    node .whileHead (seq [word "while", sym namedExpression, word ":"]),
    node .forHead (seq [opt (word "async"), word "for", sym starTargets, word "in", sym starExpressions,
      word ":"]),
    node .tryHead (seq [word "try", word ":"]),
    node .exceptStarHead (seq [word "except", word "*", sym expression, asName, word ":"]),
    node .exceptHead (seq [word "except", opt (seq [sym expression, asName]), word ":"]),
    node .finallyHead (seq [word "finally", word ":"]),
    node .withHead (seq [opt (word "async"), word "with", withItems])]

/-- The head of a `match` statement, which nothing may follow on its line. -/
def matchHead : E :=
  let more : E := tupleRest (sym starNamed)
  let subject : E := alt [extend (sym namedExpression) [(.tuple, more)], node .tuple (seq [starred, more])]
  seq [node .matchHead (seq [word "match", subject, word ":"]), stop]

/-- The expression of a symbol for lines. -/
def ofLine : Nonterminal → E
  | smallStatement =>
    alt [keywordStatement, importing, typeAlias, annotatedAssignment, assignment, augmentedAssignment,
      node .expression rightSide]
  | simple =>
    node .simple (seq [sym smallStatement, many (seq [word ";", sym smallStatement]), opt (word ";")])
  | withItem =>
    alt [seq [sym expression, word "as", sym starTarget,
        ahead (alt [word ",", word ")", word ":"])],
      sym expression]
  | line =>
    alt [node .decorator (seq [word "@", sym namedExpression]),
      seq [head, opt (sym simple)],
      matchHead,
      sym simple]
  | caseLine =>
    seq [node .caseHead (seq [word "case", sym patterns, opt (seq [word "if", sym namedExpression]),
      word ":"]), opt (sym simple)]
  | _ => nothing

/-- The grammar: the expression of every symbol. -/
def rules (s : Nonterminal) : E :=
  match s with
  | smallStatement | simple | withItem | line | caseLine => ofLine s
  | patterns | sequencePattern | starPattern | pattern | closedPattern | mappingKey => ofPattern s
  | _ => ofExpression s

/-- How deep expressions may nest for a number of tokens: more than any text of so many tokens needs. -/
def depth (tokens : Nat) : Nat := 256 * (tokens + 1)

/-- The trees of a whole line, read by a symbol. -/
def readLine? (s : Nonterminal) (tokens : List Token) : Option (List SyntaxTree) :=
  match run rules (depth tokens.length) (sym s) tokens with
  | some (trees, []) => some trees
  | _ => none

end Conformance.Source.Grammar
