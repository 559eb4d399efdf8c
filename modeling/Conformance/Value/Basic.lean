import Conformance.Marker
import Conformance.Program.Basic
import Conformance.Value.ErrorKind

/-!
# Values

What expressions of a loaded module evaluate to.  Besides data there are results of tests, classes and generic
classes applied to arguments, functions, and errors.  Values are immutable; a class is a reference into a
`Hierarchy`, which holds its body.
-/

namespace Conformance

/-- A class of a hierarchy, with the names it goes by. -/
structure ClassRef where
  index : Nat
  /-- The module it belongs to; a built-in class has none. -/
  home : Option String := none
  name : String
  qualname : String := name
  deriving DecidableEq, Repr, Inhabited

/-- The code of a function. -/
structure Code where
  signature : Signature
  body : List Stmt
  qualname : String
  deriving Repr, Inhabited

/-- What a function is wrapped in by a decorator. -/
inductive Wrapping where
  | static
  | ofClass
  | isAbstract
  deriving DecidableEq, Repr, Inhabited

/-- The functions that modules can import or that are always there. -/
inductive Native where
  | print
  | marker (m : Marker)
  /-- Returns its argument: what a marker with arguments decorates with. -/
  | decorator
  | panicAny
  | unwrap
  | expectUnit
  | catchUnwind
  | panicMessage
  | expectPanic
  | checkRequirements
  | typeVariable
  | wrap (w : Wrapping)
  | runtimeCheckable
  deriving DecidableEq, Repr, Inhabited

mutual

/-- A value. -/
inductive Value where
  | nothing
  | ellipsis
  | bool (b : Bool)
  | int (i : Int)
  | text (s : String)
  /-- Text whose class derives from that of text. -/
  | textOf (typeName s : String)
  | bytes (bs : List UInt8)
  | list (items : List Value)
  | tuple (items : List Value)
  | dict (entries : List (Value × Value))
  /-- The results of a test. -/
  | ok (v : Value)
  | err (e : Value)
  | type (c : ClassRef)
  /-- A generic class or form applied to arguments. -/
  | applied (origin : Value) (args : List Value)
  | typeVariable (name : String)
  /-- A special form of a module, known by name only. -/
  | form (home name : String)
  /-- The requirement that a type is not abstract. -/
  | concrete
  | error (kind : ErrorKind) (args : List Value)
  | instanceOf (c : ClassRef)
  /-- An object of a class outside the hierarchy, with its attributes. -/
  | object (typeName : String) (attributes : List (String × Value))
  | function (code : Code) (defaults captured : List (String × Value))
  | wrapped (w : Wrapping) (f : Value)
  | bound (f self : Value)
  | native (n : Native)
  /-- A callable that is known by what it does. -/
  | callable (label : String) (b : Behaviour)
  | library (path : List String)

/-- What a callable does. -/
inductive Behaviour where
  | returns (v : Value)
  | raises (kind : ErrorKind) (args : List Value)
  /-- Returns its arguments. -/
  | echoes
  /-- Tells whether its argument has an attribute. -/
  | has (name : String)
  /-- Tells whether its argument is a generic class applied to arguments. -/
  | isApplied

end

instance : Inhabited Value := ⟨.nothing⟩
instance : Inhabited Behaviour := ⟨.echoes⟩

/-- Values by name, in the order in which the names were first bound. -/
abbrev Namespace := List (String × Value)

/-- Binds a name, keeping its place if it was bound before. -/
def Namespace.bind (name : String) (v : Value) : Namespace → Namespace
  | [] => [(name, v)]
  | (n, w) :: rest => if n == name then (n, v) :: rest else (n, w) :: Namespace.bind name v rest

/-- An error that was raised. -/
structure Raised where
  kind : ErrorKind
  args : List Value
  deriving Inhabited

namespace Value

/-- Whether the value is text, of whatever class. -/
def text? : Value → Option String
  | text s | textOf _ s => some s
  | _ => none

/-- The name of the class of a value. -/
def typeName : Value → String
  | nothing => "NoneType"
  | ellipsis => "ellipsis"
  | bool _ => "bool"
  | int _ => "int"
  | text _ => "str"
  | textOf t _ => t
  | bytes _ => "bytes"
  | list _ => "list"
  | tuple _ => "tuple"
  | dict _ => "dict"
  | ok _ => "Ok"
  | err _ => "Err"
  | type _ => "type"
  | applied (type c) _ => if c.home.isSome then "_GenericAlias" else "GenericAlias"
  | applied .. => "_GenericAlias"
  | typeVariable _ => "TypeVar"
  | form .. => "_SpecialForm"
  | concrete => "_ConcreteRequirement"
  | error k _ => k.name
  | instanceOf c => c.name
  | object t _ => t
  | function .. => "function"
  | wrapped .static _ => "staticmethod"
  | wrapped .ofClass _ => "classmethod"
  | wrapped .isAbstract _ => "function"
  | bound .. => "method"
  | native .print => "builtin_function_or_method"
  | native _ => "function"
  | callable .. => "function"
  | library _ => "module"

/-- Whether the value counts as true. -/
def truth : Value → Bool
  | nothing => false
  | bool b => b
  | int i => i != 0
  | text s | textOf _ s => s != ""
  | bytes bs => !bs.isEmpty
  | list items | tuple items => !items.isEmpty
  | dict entries => !entries.isEmpty
  | _ => true

/-- Whether the value can be called. -/
def isCallable : Value → Bool
  | type _ | applied .. | function .. | bound .. | native _ | callable .. => true
  | wrapped .static _ | wrapped .isAbstract _ => true
  | _ => false

/-- Whether a function is still to be given a body by a derived class. -/
def isAbstract : Value → Bool
  | wrapped .isAbstract _ => true
  | wrapped _ f => f.isAbstract
  | _ => false

/-- The value of a constant. -/
def ofConstant : Constant → Value
  | .none => nothing
  | .bool b => bool b
  | .int i => int i
  | .text s => text s
  | .bytes bs => bytes bs
  | .ellipsis => ellipsis

end Value

end Conformance
