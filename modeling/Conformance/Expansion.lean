import Conformance.Implementation.Functions
import Conformance.Interface.Runner
import Conformance.Settings.Basic
import Conformance.Source.Parse

/-!
# Expansion of a module

Marked classes are found at any depth.  An interface is replaced by its class with the hidden method, an
implementation by its class and test functions; everything else stays.  A definition is entered before its
body is looked at and a marked class is expanded after it, and the first violation in that order ends the
expansion.  The counter for generated names survives a failure.
-/

namespace Conformance

open Source

/-- What an expansion leaves behind besides its result. -/
structure Progress where
  /-- The number of the next generated function. -/
  counter : Nat := 0
  /-- The interfaces and implementations expanded so far. -/
  interfaces : List String := []
  implementations : List String := []
  /-- Messages for the log, at the level of details. -/
  log : List String := []
  deriving DecidableEq, Repr, Inhabited

/-- A computation that may fail and keeps its progress even then. -/
abbrev Expand := ExceptT Failure (StateM Progress)

/-- What an expansion depends on. -/
structure Surroundings where
  settings : Settings := {}
  filename : String := "<string>"
  /-- The names that the module binds to type variables. -/
  typeVariables : List String := []

namespace Surroundings

/-- The span of a stretch of the module's text. -/
def span (s : Surroundings) (e : Extent) : Span :=
  { filename := s.filename, line := e.start.line, column := e.start.column, endLine := e.stop.line,
    endColumn := e.stop.column }

/-- Runs a check inside a definition; its failure is given a place in the text. -/
def checking {α : Type} (s : Surroundings) (definition : Option Extent) (r : Except Failure α) : Expand α :=
  match r with
  | .ok a => pure a
  | .error e => throw (e.locate (fun x => some (s.span x)) (definition.map s.span))

end Surroundings

/-! ## Markers of definitions -/

/-- The markers that start an expansion. -/
def entryMarkers : List Marker := [.interface, .implementation]

/-- The entry markers among some decorators, in their order. -/
def entries (aliases : List String) (ds : List Decorator) : List (Marker × Decorator) :=
  ds.flatMap fun d => (entryMarkers.filter fun m => m.marks aliases d).map fun m => (m, d)

/-- The one entry marker of a definition, if there is any. -/
def entry? (aliases : List String) (ds : List Decorator) : Except Failure (Option (Marker × Decorator)) :=
  match entries aliases ds with
  | [] => .ok none
  | [e] => .ok (some e)
  | _ :: second :: _ => violated .repeatedMarker second.2.extent?

/-- Enters a class: its marker, unless it has too many or stands inside another marked class. -/
def enterClass (aliases : List String) (inside : Bool) (c : Class) :
    Except Failure (Option (Marker × Decorator)) := do
  let found ← entry? aliases c.prelude.decorators
  match found with
  | some (m, d) => if inside then violated (.nestedMarker m.word) d.extent? else return found
  | none => return none

/-- Enters a function, which cannot be marked. -/
def enterFunction (aliases : List String) (f : Function) : Except Failure Unit := do
  match ← entry? aliases f.prelude.decorators with
  | none => return
  | some (.interface, d) => discard (expandInterface aliases d.expression.arguments f.statement)
  | some (_, d) => discard (Implementation.read aliases [] d.expression.arguments f.statement)

/-- The class without its entry marker. -/
def Class.unmarked (aliases : List String) (c : Class) : Class :=
  let kept := (Marker.strip aliases entryMarkers c.prelude.decorators).1
  { c with prelude := { c.prelude with decorators := kept } }

/-! ## Expansion of one class -/

/-- Expands a class with the given marker. -/
def expandClass (s : Surroundings) (m : Marker) (d : Decorator) (c : Class) : Expand (List Statement) := do
  let aliases := s.settings.aliases
  let item := (c.unmarked aliases).statement
  match m with
  | .interface =>
    let expanded ← s.checking c.extent? (expandInterface aliases d.expression.arguments item)
    modify fun p => { p with
      interfaces := p.interfaces ++ [c.name],
      log := p.log ++ ["Expanded @tested_trait on '" ++ c.name ++ "'"] }
    return [expanded.statement]
  | _ =>
    let i ← s.checking c.extent? (Implementation.read aliases s.typeVariables d.expression.arguments item)
    let statements := i.expanded s.settings.testPrefix (← get).counter
    modify fun p => { p with
      counter := p.counter + i.instantiations.length,
      implementations := p.implementations ++ [c.name],
      log := p.log ++ ["Expanded @test_impl on '" ++ c.name ++ "' into " ++ (statements.length - 1).repr ++
        " statement(s)"] }
    return statements

/-! ## Expansion of statements -/

mutual

/-- Expands a statement; `inside` says whether it stands in a marked class. -/
def expandStatement (s : Surroundings) (inside : Bool) : Statement → Expand (List Statement)
  | .simple lead body stop => return [.simple lead body stop]
  | .clause lead head body => return [.clause lead head (← expandSuite s inside body)]
  | .ofFunction prelude head body => do
    s.checking (head.extent? body) (enterFunction s.settings.aliases { prelude, head, body })
    return [.ofFunction prelude head (← expandSuite s inside body)]
  | .ofClass prelude head body => do
    match ← s.checking (head.extent? body) (enterClass s.settings.aliases inside { prelude, head, body }) with
    | none => return [.ofClass prelude head (← expandSuite s inside body)]
    | some (m, d) =>
      let _ ← expandSuite s true body
      expandClass s m d { prelude, head, body }

/-- Expands the statements of a suite. -/
def expandSuite (s : Surroundings) (inside : Bool) : Suite → Expand Suite
  | .inline body stop => return .inline body stop
  | .block opening indent body footer => return .block opening indent (← expandStatements s inside body) footer

/-- Expands statements one after the other. -/
def expandStatements (s : Surroundings) (inside : Bool) : List Statement → Expand (List Statement)
  | [] => return []
  | first :: rest => do
    let a ← expandStatement s inside first
    let b ← expandStatements s inside rest
    return a ++ b

end

/-! ## Type variables -/

/-- The functions that make type variables. -/
def typeVariableFactories : List String :=
  ["", "typing.", "typing_extensions."].flatMap fun m =>
    ["TypeVar", "ParamSpec", "TypeVarTuple"].map fun f => m ++ f

/-- The names that a small statement binds to type variables. -/
def typeVariablesOfSmall : SyntaxTree → List String
  | .node .assign children =>
    let parts := children.filter fun c => !c.isOperator "="
    match parts.getLast? with
    | some value =>
      if value.isCall && value.callee.dotted?.any typeVariableFactories.contains then
        parts.dropLast.filterMap fun t => t.name?.map Token.text
      else []
    | none => []
  | _ => []

/-- The names that a line binds to type variables. -/
def typeVariablesOfLine (line : SyntaxTree) : List String :=
  line.smallStatements.flatMap typeVariablesOfSmall

mutual

/-- The names that a statement binds to type variables, at any depth. -/
def typeVariablesOf : Statement → List String
  | .simple _ body _ => typeVariablesOfLine body
  | .clause _ _ body => typeVariablesOfSuite body
  | .ofClass _ _ body => typeVariablesOfSuite body
  | .ofFunction _ _ body => typeVariablesOfSuite body

def typeVariablesOfSuite : Suite → List String
  | .inline body _ => typeVariablesOfLine body
  | .block _ _ body _ => typeVariablesOfAll body

def typeVariablesOfAll : List Statement → List String
  | [] => []
  | s :: ss => typeVariablesOf s ++ typeVariablesOfAll ss

end

/-- The names that a module binds to type variables, sorted and without repetition. -/
def typeVariables (m : Module) : List String :=
  ((typeVariablesOfAll m.body).foldl addNew []).mergeSort fun a b => a ≤ b

/-! ## Expansion of a text -/

/-- The failure of a text that is not well formed. -/
def invalidSyntax (filename : String) : Failure :=
  .fault { kind := .invalidSyntax,
           main := { message := "invalid syntax",
                     span := some { filename, line := 1, column := 1, endLine := 1, endColumn := 1 } } }

/-- Expands a module. -/
def expandModule (settings : Settings) (filename : String) (m : Module) : Expand Module := do
  let s : Surroundings := { settings, filename, typeVariables := typeVariables m }
  return { m with body := ← expandStatements s false m.body }

/-- Expands a text. -/
def expandText (settings : Settings) (filename source : String) : Expand String :=
  match Module.parse? source with
  | none => throw (invalidSyntax filename)
  | some m => return (← expandModule settings filename m).render

/-! ## Reports -/

/-- The result of an expansion that is reported rather than raised. -/
structure Report where
  /-- The expanded text, or the text as it was given. -/
  code : String
  diagnostics : List Diagnostic := []
  interfaces : List String := []
  implementations : List String := []
  deriving DecidableEq, Repr, Inhabited

/-- Whether every marked class was expanded. -/
def Report.success (r : Report) : Bool := r.diagnostics.isEmpty

/-- Expands a text from a value of the counter on and reports what came of it.  Only a literal without a value
is not reported. -/
def report (settings : Settings) (filename source : String) (counter : Nat) :
    Except LiteralError Report × Progress :=
  match (expandText settings filename source).run { counter } with
  | (.ok code, p) => (.ok { code, interfaces := p.interfaces, implementations := p.implementations }, p)
  | (.error (.fault f), p) =>
    (.ok { code := source, diagnostics := [f.diagnostic] },
     { p with log := p.log ++ ["Expansion of " ++ filename ++ " failed: " ++ f.kind.name] })
  | (.error (.literal e), p) => (.error e, p)

end Conformance
