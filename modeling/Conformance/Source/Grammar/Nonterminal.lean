import Conformance.Source.Grammar.Peg

/-!
# The symbols of the grammar

One symbol per construct of Python that is read by itself.  Their expressions stand in the modules on
expressions, patterns and lines.
-/

namespace Conformance.Source

/-- The symbols of the grammar. -/
inductive Nonterminal where
  -- expressions
  | starExpressions | starExpression | starNamed | namedExpression | expression
  | disjunction | conjunction | inversion | comparison
  | bitOr | bitXor | bitAnd | shift | sum | term | factor | power | awaited | primary | atom
  | strings | template | field | parens | brackets | braces
  | comprehension | starTargets | starTarget | slices | callArguments | arguments
  | lambda | lambdaParameters | yielding
  -- parameters
  | parameters | typeParameters
  -- patterns
  | patterns | sequencePattern | starPattern | pattern | closedPattern | mappingKey
  -- lines
  | smallStatement | simple | withItem | line | caseLine
  deriving DecidableEq, Repr

end Conformance.Source
