import Conformance.Source.Definition

/-!
# Markers

A marker is a decorator that the expansion understands.  It is written by its word alone or through one of the
configured module names, and with or without a call:

    @test    @tt.test    @tested_trait.should_panic(expected="x")
-/

namespace Conformance

open Source

/-- The decorators that the expansion understands. -/
inductive Marker where
  /-- On an interface class. -/
  | interface
  /-- On an implementing class. -/
  | implementation
  /-- On an associated test of an interface. -/
  | test
  | shouldPanic
  | requires
  /-- On an implementing class whose tests are run where they are generated. -/
  | runInline
  deriving DecidableEq, Repr, Inhabited

namespace Marker

/-- How the marker is written. -/
def word : Marker → String
  | interface => "tested_trait"
  | implementation => "test_impl"
  | test => "test"
  | shouldPanic => "should_panic"
  | requires => "requires"
  | runInline => "run_inline"

/-- All markers. -/
def all : List Marker :=
  [interface, implementation, test, shouldPanic, requires, runInline]

/-- The marker with a word. -/
def ofWord? (s : String) : Option Marker :=
  all.find? fun m => m.word == s

/-- The module names that may stand before a marker if nothing else is configured. -/
def defaultAliases : List String := ["tested_trait", "tt"]

/-- The dotted names a marker can be written as. -/
def spellings (aliases : List String) (m : Marker) : List String :=
  m.word :: aliases.map fun a => a ++ "." ++ m.word

/-- Whether the decorator is the marker, with or without a call. -/
def marks (aliases : List String) (m : Marker) (d : Decorator) : Bool :=
  match d.expression.callee.dotted? with
  | some name => (m.spellings aliases).contains name
  | none => false

/-- Whether the decorator is the marker without a call. -/
def marksBare (aliases : List String) (m : Marker) (d : Decorator) : Bool :=
  m.marks aliases d && !d.expression.isCall

/-- Splits decorators into those that are kept and those that are one of the markers. -/
def strip (aliases : List String) (markers : List Marker) (ds : List Decorator) :
    List Decorator × List Decorator :=
  ds.partition fun d => !markers.any fun m => m.marks aliases d

end Marker

/-- Whether the decorator says that a method is abstract. -/
def marksAbstract (d : Decorator) : Bool :=
  match d.expression.dotted? with
  | some name => ["abstractmethod", "abc.abstractmethod"].contains name
  | none => false

/-- Whether the decorator says how a method is bound, which tests do not need. -/
def marksBinding (d : Decorator) : Bool :=
  match d.expression.dotted? with
  | some name => ["staticmethod", "classmethod"].contains name
  | none => false

end Conformance
