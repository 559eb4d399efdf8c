import Conformance.Evaluation.Evaluate
import Conformance.Expansion
import Conformance.Program.Reading
import Conformance.Settings.Load

/-!
# Loading of modules

A source file is expanded and run as a module.  The module is registered under its name before it is run and
taken out again if that fails.  The functions that the expansion made can then be run one after the other.
-/

namespace Conformance

open Source

/-- A module that was loaded. -/
structure Loaded where
  name : String
  file : Path
  /-- What running it left behind. -/
  world : World := {}

/-- The registered modules by name. -/
abbrev Registry := List (String × Loaded)

namespace Registry

/-- Registers a module, in place of one with the same name. -/
def register (m : Loaded) : Registry → Registry
  | [] => [(m.name, m)]
  | (n, old) :: rest => if n == m.name then (n, m) :: rest else (n, old) :: register m rest

/-- Takes out the module with a name. -/
def remove (name : String) (r : Registry) : Registry :=
  r.filter fun e => e.1 != name

end Registry

/-- Why a module could not be loaded. -/
inductive LoadError where
  | missing (path : Path)
  | settings (e : SettingsError)
  | unreadable (e : Files.ReadError)
  | expansion (e : Failure)
  | raised (e : Raised)

/-- What is said about a path that is no file. -/
def missingSource (p : Path) : String := "No such source file: " ++ p.text

/-- The name a module is registered under if none is given. -/
def moduleName (p : Path) (name : String) : String :=
  if name == "" then "tested_trait_" ++ p.stem else name

/-- The text of a source file and the settings it is expanded with: those given, or else those that are found
from its directory on. -/
def sourceText (root : String) (fs : Files) (p : Path) (settings : Option Settings) :
    Except LoadError (Settings × String) := do
  if !fs.isFile p then throw (.missing p)
  let settings ← match settings with
    | some s => pure s
    | none => (Settings.load root fs p.parent {}).mapError LoadError.settings
  return (settings, ← (fs.readText p).mapError LoadError.unreadable)

/-- Runs an expanded text as a module. -/
def runText (code : String) : Run Unit :=
  match Module.parse? code with
  | some m => discard (executeAll callValue (Stmt.ofStatements m.body))
  | none => raising ⟨"SyntaxError"⟩ "invalid syntax"

/-- What loading a module leaves behind. -/
structure LoadResult where
  registry : Registry
  /-- The number of the next generated function. -/
  counter : Nat
  printed : List String := []
  result : Except LoadError Loaded

/-- Registers a module and runs its text. -/
def loadText (registry : Registry) (counter : Nat) (m : Loaded) (code : String) : LoadResult :=
  let registered := registry.register m
  match runText code m.world with
  | (.ok (), world) =>
    let m := { m with world }
    { registry := registered.register m, counter, printed := world.printed, result := .ok m }
  | (.error e, world) =>
    { registry := registered.remove m.name, counter, printed := world.printed, result := .error (.raised e) }

/-- Loads a module.  An empty name stands for the usual one. -/
def load (root : String) (fs : Files) (registry : Registry) (counter : Nat) (p : Path) (name : String)
    (settings : Option Settings) : LoadResult :=
  match sourceText root fs p settings with
  | .error e => { registry, counter, result := .error e }
  | .ok (settings, source) =>
    match (expandText settings p.text source).run { counter } with
    | (.error e, progress) => { registry, counter := progress.counter, result := .error (.expansion e) }
    | (.ok code, progress) =>
      let name := moduleName p name
      loadText registry progress.counter { name, file := p, world := { home := name } } code

/-! ## Test functions -/

/-- What came of running a test function. -/
structure TestRun where
  name : String
  printed : List String
  error : Option Raised

/-- Whether a name is that of a function the expansion made. -/
def isTestFunction (name : String) : Bool :=
  occursIn "trait_impl_".toList name.toList

/-- Runs functions one after the other; what is printed is kept for each. -/
def runFunctions (w : World) : Namespace → List TestRun
  | [] => []
  | (name, f) :: rest =>
    match callValue f [] [] { w with printed := [] } with
    | (.ok _, after) => { name, printed := after.printed, error := none } :: runFunctions after rest
    | (.error e, after) => { name, printed := after.printed, error := some e } :: runFunctions after rest

/-- Runs the test functions of a module in the order in which they were bound. -/
def Loaded.runTests (m : Loaded) : List TestRun :=
  runFunctions m.world (m.world.globals.filter fun e => isTestFunction e.1)

end Conformance
