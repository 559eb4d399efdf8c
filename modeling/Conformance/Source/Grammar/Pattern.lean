import Conformance.Source.Grammar.Expression

/-!
# Patterns

What stands after `case`.
-/

namespace Conformance.Source.Grammar

open Peg Nonterminal

/-- A name that a pattern binds: any but the wildcard. -/
def captureName : E := seq [never (word "_"), name]

/-- A name with attributes. -/
def dotted : E := seq [name, many (seq [word ".", name])]

/-- A number with an optional sign, or a complex one. -/
def patternNumber : E :=
  let one : E := seq [opt (word "-"), tok (.kind .number)]
  seq [one, opt (seq [alt [word "+", word "-"], tok (.kind .number)])]

/-- Patterns with commas, or a single one. -/
def openPatterns : E :=
  let more : E := seq [word ",", opt (sym sequencePattern)]
  alt [seq [sym starPattern, more], seq [sym pattern, opt more]]

/-- The arguments of a class pattern: positional ones, then keywords. -/
def patternArguments : E :=
  seq [many (seq [never keywordAhead, sym pattern, argumentEnd]),
    many (seq [name, word "=", sym pattern, argumentEnd])]

/-- The inside of a mapping pattern. -/
def mappingItems : E :=
  let finish : E := alt [word ",", ahead (word "\x7d")]
  seq [many (seq [sym mappingKey, word ":", sym pattern, finish]),
    opt (seq [word "**", captureName, finish])]

/-- The expression of a symbol for patterns. -/
def ofPattern : Nonterminal → E
  | patterns => node .pattern openPatterns
  | sequencePattern => trailedCommas (alt [sym starPattern, sym pattern])
  | starPattern => seq [word "*", name]
  | pattern =>
    seq [sym closedPattern, many (seq [word "|", sym closedPattern]), opt (seq [word "as", captureName])]
  | closedPattern =>
    alt [patternNumber, sym strings, word "None", word "True", word "False",
      seq [dotted, opt (seq [word "(", patternArguments, word ")"])],
      seq [word "(", opt openPatterns, word ")"],
      seq [word "[", opt (sym sequencePattern), word "]"],
      seq [word "\x7b", mappingItems, word "\x7d"]]
  | mappingKey =>
    alt [patternNumber, sym strings, word "None", word "True", word "False",
      seq [name, some1 (seq [word ".", name])]]
  | _ => nothing

end Conformance.Source.Grammar
