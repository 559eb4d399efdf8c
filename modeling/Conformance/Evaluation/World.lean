import Conformance.Hierarchy.Creation

/-!
# The state of a run

Running a module builds up its names, its classes and the lines it prints.  An error ends a run but takes
nothing back: what was printed and bound before stays.
-/

namespace Conformance

/-- The names that a function or class body binds while it runs. -/
structure Scope where
  names : Namespace := []
  /-- The names of the functions around it. -/
  enclosing : Namespace := []
  /-- The names that a function binds somewhere in its body.  They stand for nothing else, not even before they
  are bound. -/
  own : List String := []
  /-- Whether it is the body of a class, whose names the functions in it do not see. -/
  ofClass : Bool := false
  /-- The names a class body annotates. -/
  hints : List String := []
  /-- What the qualified names of its definitions start with. -/
  path : String := ""

/-- The state of a run. -/
structure World where
  /-- The name of the module. -/
  home : String := "__main__"
  classes : Hierarchy := .standard
  globals : Namespace := []
  /-- The innermost scope; none at the level of the module. -/
  scope : Option Scope := none
  printed : List String := []

/-- A computation that may raise an error. -/
abbrev Run := ExceptT Raised (StateM World)

/-- How a value is called with positional and keyword arguments. -/
abbrev Call := Value → List Value → Namespace → Run Value

/-- An error with a message. -/
def Raised.say (kind : ErrorKind) (message : String) : Raised := { kind, args := [.text message] }

/-- Raises an error with a message. -/
def raising {α : Type} (kind : ErrorKind) (message : String) : Run α := throw (.say kind message)

/-- Raises an error about something outside the supported part of the language. -/
def unsupported {α : Type} (what : String) : Run α :=
  raising .unsupported (what ++ " is not supported")

/-- The result of a computation that depends on the classes so far. -/
def fromClasses {α ε : Type} (f : Hierarchy → Except ε α) (message : ε → String) : Run α := do
  match f (← get).classes with
  | .ok a => return a
  | .error e => raising .type (message e)

namespace World

/-- Binds a name in the innermost scope. -/
def bind (name : String) (v : Value) (w : World) : World :=
  match w.scope with
  | some s => { w with scope := some { s with names := s.names.bind name v } }
  | none => { w with globals := w.globals.bind name v }

/-- What a name is bound to by the program. -/
def lookup? (w : World) (name : String) : Option Value :=
  match w.scope with
  | some s => s.names.lookup name <|> s.enclosing.lookup name <|> w.globals.lookup name
  | none => w.globals.lookup name

/-- Whether the innermost function binds a name later on, but has not done so yet. -/
def awaits (w : World) (name : String) : Bool :=
  w.scope.any fun s => s.own.contains name && (s.names.lookup name).isNone

/-- What the qualified name of a definition is. -/
def qualify (w : World) (name : String) : String :=
  match w.scope with
  | some s => s.path ++ name
  | none => name

/-- The names that a function defined here sees besides its own and those of the module. -/
def visible (w : World) : Namespace :=
  match w.scope with
  | some s => if s.ofClass then s.enclosing else s.names ++ s.enclosing
  | none => []

end World

/-- Runs a computation in a scope of its own and goes back to the scope around it, whether it raises or not.
The scope is returned as it was left. -/
def inScope {α : Type} (s : Scope) (r : Run α) : Run (α × Scope) :=
  fun w =>
    match r { w with scope := some s } with
    | (result, after) =>
      (result.map fun a => (a, after.scope.getD s), { after with scope := w.scope })

/-- Prints a line. -/
def printLine (line : String) : Run Unit :=
  modify fun w => { w with printed := w.printed ++ [line] }

end Conformance
