import Conformance.Evaluation.World

/-!
# Passing arguments

Positional arguments fill the parameters in order, keyword arguments fill them by name, and defaults fill what is
left.  What does not fit goes to the parameters that collect the rest, or is an error.
-/

namespace Conformance

/-- The parameters of a callable, with their defaults. -/
structure Formals where
  plain : List (String × Option Value) := []
  keywordOnly : List (String × Option Value) := []
  rest : Option String := none
  restNamed : Option String := none

/-- Why arguments do not fit. -/
inductive ArgumentError where
  | tooMany (least most given : Nat)
  | missing (names : List String)
  | missingKeywords (names : List String)
  | unexpected (name : String)
  | twice (name : String)
  deriving DecidableEq, Repr

/-- Words as an enumeration. -/
def enumerated : List String → String
  | [] => ""
  | [a] => a
  | [a, b] => a ++ " and " ++ b
  | ws => listed ws.dropLast ++ ", and " ++ ws.getLast?.getD ""

/-- The ending of a plural. -/
def plural (n : Nat) : String := if n = 1 then "" else "s"

/-- What is said about arguments that do not fit. -/
def ArgumentError.message : ArgumentError → String
  | tooMany least most given =>
    "takes " ++ (if least = most then most.repr else "from " ++ least.repr ++ " to " ++ most.repr) ++
      " positional argument" ++ (if least = most then plural most else "s") ++ " but " ++ given.repr ++
      (if given = 1 then " was" else " were") ++ " given"
  | missing names =>
    "missing " ++ names.length.repr ++ " required positional argument" ++ plural names.length ++ ": " ++
      enumerated (names.map Text.quoted)
  | missingKeywords names =>
    "missing " ++ names.length.repr ++ " required keyword-only argument" ++ plural names.length ++ ": " ++
      enumerated (names.map Text.quoted)
  | unexpected name => "got an unexpected keyword argument '" ++ name ++ "'"
  | twice name => "got multiple values for argument '" ++ name ++ "'"

namespace Formals

/-- The names that arguments can be given by. -/
def names (f : Formals) : List String := (f.plain ++ f.keywordOnly).map Prod.fst

/-- The first keyword argument that does not fit. -/
def misfit? (f : Formals) (filled : List String) (named : Namespace) : Option ArgumentError :=
  named.findSome? fun (n, _) =>
    if filled.contains n then some (.twice n)
    else if f.names.contains n || f.restNamed.isSome then none
    else some (.unexpected n)

/-- The parameters that are neither filled nor have a default. -/
def unfilled (given : Namespace) (ps : List (String × Option Value)) : List String :=
  (ps.filter fun (n, d) => d.isNone && (given.lookup n).isNone).map Prod.fst

/-- The values of parameters that are filled by name or by default. -/
def fill (given : Namespace) (ps : List (String × Option Value)) : Namespace :=
  ps.filterMap fun (n, d) => ((given.lookup n) <|> d).map fun v => (n, v)

/-- What every parameter is bound to. -/
def bind (f : Formals) (args : List Value) (named : Namespace) : Except ArgumentError Namespace := do
  let positional : Namespace := (f.plain.map Prod.fst).zip args
  if let some e := f.misfit? (positional.map Prod.fst) named then throw e
  if f.rest.isNone && args.length > f.plain.length then
    throw (.tooMany ((f.plain.filter fun (_, d) => d.isNone).length) f.plain.length args.length)
  let given := positional ++ named
  let missing := unfilled given f.plain
  if !missing.isEmpty then throw (.missing missing)
  let missingKeywords := unfilled given f.keywordOnly
  if !missingKeywords.isEmpty then throw (.missingKeywords missingKeywords)
  let others := named.filter fun (n, _) => !f.names.contains n
  return fill given (f.plain ++ f.keywordOnly) ++
    (f.rest.map fun n => (n, Value.tuple (args.drop f.plain.length))).toList ++
    (f.restNamed.map fun n => (n, Value.dict (others.map fun (k, v) => (.text k, v)))).toList

end Formals

/-- Binds the arguments of a callable with a name. -/
def bindArguments (qualname : String) (f : Formals) (args : List Value) (named : Namespace) : Run Namespace :=
  match f.bind args named with
  | .ok bound => return bound
  | .error e => raising .type (qualname ++ "() " ++ e.message)

end Conformance
