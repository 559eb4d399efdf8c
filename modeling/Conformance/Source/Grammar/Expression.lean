import Conformance.Source.Grammar.Nonterminal

/-!
# Expressions

From lists of expressions down to atoms, by falling precedence.  Every construct is read once from the left:
where two begin alike, what follows decides which of them it is.
-/

namespace Conformance.Source.Grammar

open Peg Nonterminal

/-- The symbol's expression. -/
abbrev E := Peg Nonterminal

/-- The end of an argument: its comma, or the closing parenthesis ahead. -/
def argumentEnd : E := alt [word ",", ahead (word ")")]

/-- A name with an equals sign after it. -/
def keywordAhead : E := seq [name, word "="]

/-- `name := value`. -/
def walrus : E := seq [ahead (seq [name, word ":="]), node .walrus (seq [name, word ":=", sym expression])]

/-- `*value` in a list. -/
def starred : E := node .starred (seq [word "*", sym bitOr])

/-- A positional argument. -/
def positional : E := node .arg (seq [never keywordAhead, sym namedExpression, never (word "="), argumentEnd])

/-- A first argument, which may be a generator without parentheses of its own if it is the only one. -/
def firstPositional : E :=
  node .arg (seq [never keywordAhead,
    extend (sym namedExpression) [(.generator, seq [sym comprehension, ahead (word ")")])],
    never (word "="), argumentEnd])

/-- `*values` as an argument. -/
def starArgument : E := node .starArg (seq [word "*", sym expression, never (word "="), argumentEnd])

/-- `name=value` as an argument. -/
def keywordArgument : E := node .keywordArg (seq [name, word "=", sym expression, argumentEnd])

/-- `**values` as an argument. -/
def doubleStarArgument : E := node .doubleStarArg (seq [word "**", sym expression, argumentEnd])

/-- The arguments after the first: positional ones, then keywords and stars, then keywords and double
stars. -/
def moreArguments : List E :=
  [many (alt [positional, starArgument]), many (alt [keywordArgument, starArgument]),
   many (alt [keywordArgument, doubleStarArgument])]

/-- The rest of a list in brackets after its first comma. -/
def moreStarNamed : E := opt (trailedCommas (sym starNamed))

/-- `key: value` or `**mapping`. -/
def dictItem : E :=
  alt [seq [word "**", sym bitOr], seq [sym expression, word ":", sym expression]]

/-- What may follow the first item of a dictionary or set. -/
def moreOf (item : E) : E := opt (seq [word ",", opt (trailedCommas item)])

/-- The comparison operators. -/
def compareOperator : E :=
  alt [word "==", word "!=", word "<=", word "<", word ">=", word ">", seq [word "not", word "in"], word "in",
    seq [word "is", word "not"], word "is"]

/-- A left-associative operator. -/
def leftBinary (operand : Nonterminal) (operators : List String) : E :=
  extend (sym operand) [(.binary, seq [alt (operators.map word), sym operand])]

/-- The upper and step parts of a slice, after its lower part. -/
def sliceRest : E :=
  seq [word ":", opt (sym expression), opt (seq [word ":", opt (sym expression)])]

/-- One member of a subscript. -/
def sliceItem : E :=
  alt [node .index (seq [word "*", sym expression]),
    node .slice sliceRest,
    node .index walrus,
    build .subscript (seq [sym expression, opt sliceRest])]

/-- The rest of a tuple without parentheses, from its first comma to its last; no comma is left behind it, so
one reading takes the whole tuple. -/
def tupleRest (item : E) : E := seq [word ",", opt (trailedCommas item), never (word ",")]

/-- A literal text or a field inside a string. -/
def templatePart : E := alt [tok (.kind .templateText), sym field]

/-- Parameters, where `close` stands ahead of their end and `note` is what may annotate one. -/
def parameterList (close : String) (note starNote : E) : E :=
  let finish : E := alt [word ",", ahead (word close)]
  let default : E := opt (node .default (seq [word "=", sym expression]))
  let one : E := node .parameter (seq [name, note, default, finish])
  only .parameters (seq [
    many one,
    opt (seq [node .slash (seq [word "/", finish]), many one]),
    alt [seq [node .starParameter (seq [word "*", name, starNote, finish]), many one],
      seq [node .bareStar (seq [word "*", word ","]), some1 one],
      nothing],
    opt (node .doubleStarParameter (seq [word "**", name, note, finish]))])

/-- The annotation of a parameter. -/
def hint : E := opt (node .hint (seq [word ":", sym expression]))

/-- The annotation of a parameter with a star. -/
def starHint : E := opt (node .hint (seq [word ":", sym starExpression]))

/-- A type parameter. -/
def typeParameter : E :=
  node .typeParameter (alt [
    seq [word "**", name, opt (seq [word "=", sym expression])],
    seq [word "*", name, opt (seq [word "=", sym starExpression])],
    seq [name, opt (seq [word ":", sym expression]), opt (seq [word "=", sym expression])]])

/-- The expression of a symbol for expressions and parameters. -/
def ofExpression : Nonterminal → E
  | starExpressions =>
    extend (sym starExpression) [(.tuple, tupleRest (sym starExpression))]
  | starExpression => alt [starred, sym expression]
  | starNamed => alt [starred, sym namedExpression]
  | namedExpression => alt [walrus, seq [sym expression, never (word ":=")]]
  | expression =>
    alt [sym lambda,
      extend (sym disjunction)
        [(.conditional, seq [word "if", sym disjunction, word "else", sym expression])]]
  | disjunction => extend (sym conjunction) [(.boolean, seq [word "or", sym conjunction])]
  | conjunction => extend (sym inversion) [(.boolean, seq [word "and", sym inversion])]
  | inversion => alt [node .unary (seq [word "not", sym inversion]), sym comparison]
  | comparison => extend (sym bitOr) [(.comparison, seq [compareOperator, sym bitOr])]
  | bitOr => leftBinary bitXor ["|"]
  | bitXor => leftBinary bitAnd ["^"]
  | bitAnd => leftBinary shift ["&"]
  | shift => leftBinary sum ["<<", ">>"]
  | sum => leftBinary term ["+", "-"]
  | term => leftBinary factor ["*", "/", "//", "%", "@"]
  | factor => alt [node .unary (seq [alt [word "+", word "-", word "~"], sym factor]), sym power]
  | power => extend (sym awaited) [(.binary, seq [word "**", sym factor])]
  | awaited => alt [node .awaiting (seq [word "await", sym primary]), sym primary]
  | primary =>
    extend (sym atom) [
      (.member, seq [word ".", name]),
      (.call, seq [word "(", sym callArguments, word ")"]),
      (.subscript, seq [word "[", sym slices, word "]"])]
  | atom =>
    alt [name, word "True", word "False", word "None", sym strings, tok (.kind .number), sym parens,
      sym brackets, sym braces, word "..."]
  | strings =>
    let part : E := alt [tok (.kind .string), sym template]
    extend part [(.strings, part)]
  | template =>
    node .template (seq [tok (.kind .templateStart), many templatePart, tok (.kind .templateEnd)])
  | field =>
    node .field (seq [word "\x7b", alt [sym yielding, sym starExpressions], opt (word "="),
      opt (node .conversion (seq [word "!", tok (.kind .name)])),
      opt (seq [word ":", many templatePart]), word "\x7d"])
  | parens =>
    build .parens (seq [word "(",
      alt [sym yielding,
        seq [sym namedExpression, alt [sym comprehension, seq [word ",", moreStarNamed], nothing]],
        seq [starred, word ",", moreStarNamed],
        nothing],
      word ")"])
  | brackets =>
    build .brackets (seq [word "[",
      alt [seq [sym namedExpression, alt [sym comprehension, seq [word ",", moreStarNamed], nothing]],
        seq [starred, opt (seq [word ",", moreStarNamed])],
        nothing],
      word "]"])
  | braces =>
    build .braces (seq [word "\x7b",
      alt [seq [word "**", sym bitOr, moreOf dictItem],
        seq [starred, moreOf (sym starNamed)],
        seq [walrus, alt [sym comprehension, moreOf (sym starNamed)]],
        seq [sym expression,
          alt [seq [word ":", sym expression, alt [sym comprehension, moreOf dictItem]],
            sym comprehension, moreOf (sym starNamed)]],
        nothing],
      word "\x7d"])
  | comprehension =>
    some1 (node .compFor (seq [opt (word "async"), word "for", sym starTargets, word "in", sym disjunction,
      many (seq [word "if", sym disjunction])]))
  | starTargets => extend (sym starTarget) [(.tuple, tupleRest (sym starTarget))]
  | starTarget =>
    alt [node .starred (seq [word "*", never (word "*"), sym starTarget]), only .target (sym primary)]
  | slices => trailedCommas sliceItem
  | callArguments => seq (alt [firstPositional, starArgument, nothing] :: moreArguments)
  | arguments => seq moreArguments
  | lambda => node .lambda (seq [word "lambda", sym lambdaParameters, word ":", sym expression])
  | lambdaParameters => parameterList ":" nothing nothing
  | yielding =>
    node .yielding (seq [word "yield",
      alt [seq [word "from", sym expression], sym starExpressions, nothing]])
  | parameters => parameterList ")" hint starHint
  | typeParameters => node .typeParameters (seq [word "[", trailedCommas typeParameter, word "]"])
  | _ => nothing

end Conformance.Source.Grammar
