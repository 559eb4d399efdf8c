/-!
# Programs

The part of the source language that loading a module carries out: imports, definitions of classes and
functions, assignments, assertions, errors that are raised, and expressions made of literals, names, attributes,
subscripts, calls and comparisons.  Anything else is `unsupported`, so that every text has a program.
-/

namespace Conformance

/-- The value of a literal. -/
inductive Constant where
  | none
  | bool (b : Bool)
  | int (i : Int)
  | text (s : String)
  | bytes (bs : List UInt8)
  | ellipsis
  deriving DecidableEq, Repr, Inhabited

/-- A comparison of two values: by content, or as to whether they are the same object. -/
inductive Comparison where
  | equal
  | different
  | same
  | other
  deriving DecidableEq, Repr, Inhabited

/-- An expression. -/
inductive Expr where
  | constant (c : Constant)
  | name (s : String)
  | member (value : Expr) (name : String)
  | index (value : Expr) (key : Expr)
  | call (callee : Expr) (args : List Expr) (named : List (String × Expr))
  | tuple (items : List Expr)
  | list (items : List Expr)
  | dict (entries : List (Expr × Expr))
  | negative (e : Expr)
  | not (e : Expr)
  | compare (c : Comparison) (left right : Expr)
  | unsupported
  deriving Repr, Inhabited

/-- How arguments reach a parameter. -/
inductive ParameterKind where
  | plain
  | keywordOnly
  /-- Takes the positional arguments that are left. -/
  | rest
  /-- Takes the keyword arguments that are left. -/
  | restNamed
  deriving DecidableEq, Repr, Inhabited

/-- A parameter of a function. -/
structure Parameter where
  name : String
  kind : ParameterKind := .plain
  hint : Option Expr := none
  default : Option Expr := none
  deriving Repr, Inhabited

/-- The head of a function. -/
structure Signature where
  name : String
  parameters : List Parameter
  returns : Option Expr := none
  deriving Repr, Inhabited

/-- A statement. -/
inductive Stmt where
  | pass
  | eval (e : Expr)
  | assign (names : List String) (value : Expr)
  | annotate (name : String) (hint : Expr) (value : Option Expr)
  /-- `import path as name`; without a name of its own, the first segment of the path is bound. -/
  | importing (path : List String) (name : Option String)
  /-- Names of a module, each with the name it is bound to. -/
  | importingFrom (path : List String) (names : List (String × String))
  | returning (value : Option Expr)
  | raising (error : Option Expr)
  | asserting (test : Expr) (message : Option Expr)
  | define (decorators : List Expr) (signature : Signature) (body : List Stmt)
  | defineClass (decorators : List Expr) (name : String) (bases : List Expr) (named : List (String × Expr))
      (body : List Stmt)
  | unsupported
  deriving Repr, Inhabited

end Conformance
