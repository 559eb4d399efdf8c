import Conformance.Command.Usage
import Conformance.Console.Record
import Conformance.Console.Table
import Conformance.Expansion
import Conformance.Settings.Load

/-!
# The commands

`expand` expands a file or the files of a directory and writes what comes of them; `check` only reports.  Both
go on after a file that fails, so that one run shows all failures.
-/

namespace Conformance.Command

/-- Something that is said while a command runs. -/
inductive Event where
  | inputMissing (path : Path)
  | destinationMissing
  | noSources (path : Path)
  | expanding (count : Nat) (path : Path)
  | unreadable (path : Path) (e : Files.ReadError)
  | diagnosed (d : Diagnostic)
  | expanded (input output : Path)
  | failures (failed total : Nat)
  | checked (files interfaces implementations : Nat)
  | badSettings (e : SettingsError)
  /-- A detail of an expansion. -/
  | detail (text : String)
  deriving Repr

/-- The level of an event. -/
def Event.level : Event → Level
  | noSources _ => .warning
  | expanding .. => .info
  | expanded .. | checked .. => .success
  | detail _ => .debug
  | _ => .error

/-- The wording of an event. -/
def Event.message : Event → String
  | inputMissing path => "Input not found: " ++ path.text
  | destinationMissing => "Directory expansion requires --out destination directory."
  | noSources path => "No .py files found in " ++ path.text
  | expanding count path => "Expanding " ++ count.repr ++ " files from " ++ path.text ++ "..."
  | unreadable path e => "Failed to read " ++ path.text ++ ": " ++ e.message
  | diagnosed d => d.logMessage
  | expanded input output => "Expanded: [path]" ++ input.text ++ "[/path] -> [path]" ++ output.text ++ "[/path]"
  | failures failed total => failed.repr ++ " of " ++ total.repr ++ " file(s) failed to expand."
  | checked files interfaces implementations =>
    "Checked " ++ files.repr ++ " file(s): " ++ interfaces.repr ++ " interface(s), " ++ implementations.repr ++
      " implementation(s)."
  | badSettings (.invalid problems) => "Invalid configuration: " ++ (SettingsError.invalid problems).message
  | badSettings e => e.message
  | detail text => text

/-- The record of an event. -/
def Event.record (e : Event) : Record := { level := e.level, message := e.message }

/-- Why a command ends without an exit code. -/
inductive Crash where
  | settings (e : SettingsError)
  | file (e : FileError)
  | literal (e : Source.LiteralError)
  | markup (e : Markup.MarkupError)
  deriving DecidableEq, Repr

def Crash.message : Crash → String
  | settings e => e.message
  | file e => e.message
  | literal e => e.message
  | markup e => e.message

/-- What a command works on and leaves behind. -/
structure World where
  /-- The path of the current directory. -/
  root : String := "/"
  files : Files := {}
  /-- The number of the next generated function. -/
  counter : Nat := 0
  threshold : Level := .warning
  stdout : String := ""
  /-- Lines printed on the console, besides the log. -/
  printed : List String := []
  /-- The events that passed the level in force when they arose. -/
  events : List Event := []

/-- A step of a command: it changes the world and may crash. -/
abbrev Action := ExceptT Crash (StateM World)

/-- Reports an event, if its level is in force. -/
def say (e : Event) : Action Unit :=
  modify fun w => if e.record.passes w.threshold then { w with events := w.events ++ [e] } else w

/-- Adopts the outcome of a change to the files. -/
def changing (r : Files → Except FileError Files) : Action Unit := do
  match r (← get).files with
  | .ok files => modify fun w => { w with files }
  | .error e => throw (.file e)

/-! ## One file -/

/-- What came of one file. -/
structure FileResult where
  failed : Bool
  interfaces : Nat := 0
  implementations : Nat := 0
  deriving DecidableEq, Repr

/-- Where the expansion of a file goes. -/
inductive Destination where
  | nowhere
  | stdout
  | file (path : Path)

/-- Expands a text as the next one, and reports on it. -/
def expandNext (settings : Settings) (path : Path) (source : String) : Action Report := do
  let (outcome, p) := report settings path.text source (← get).counter
  modify fun w => { w with counter := p.counter }
  p.log.forM fun line => say (.detail line)
  match outcome with
  | .error e => throw (.literal e)
  | .ok r =>
    r.diagnostics.forM fun d => say (.diagnosed d)
    return r

/-- Expands one file and reports on it. -/
def expandFile (settings : Settings) (input : Path) (dest : Destination) : Action FileResult := do
  match (← get).files.readText input with
  | .error e =>
    say (.unreadable input e)
    return { failed := true }
  | .ok source =>
    let r ← expandNext settings input source
    let result : FileResult :=
      { failed := !r.success, interfaces := r.interfaces.length, implementations := r.implementations.length }
    if !r.success then return result
    match dest with
    | .nowhere => return result
    | .stdout =>
      modify fun w => { w with stdout := w.stdout ++ r.code }
      return result
    | .file output =>
      changing fun fs => fs.makeDirectories output.parts.length output.parent
      changing fun fs => fs.writeText output r.code
      say (.expanded input output)
      return result

/-! ## Summary -/

/-- The row of a file. -/
def summaryRow (name : String) (r : FileResult) : Except Crash (List String) := do
  let shown ← (Markup.shown name).mapError Crash.markup
  return [shown, r.interfaces.repr, r.implementations.repr, if r.failed then "failed" else "ok"]

/-- The table of a batch. -/
def summary (results : List (String × FileResult)) : Except Crash Table := do
  let rows ← results.mapM fun (name, r) => summaryRow name r
  return { title := "Expansion Summary",
           columns := [⟨"File", .left⟩, ⟨"Interfaces", .right⟩, ⟨"Implementations", .right⟩, ⟨"Status", .left⟩],
           rows }

/-! ## Commands -/

/-- Loads the settings for an input, and puts their level in force. -/
def loadSettings (input : Path) (r : Request) : Action (Option Settings) := do
  let w ← get
  if !w.files.present input then
    say (.inputMissing input)
    return none
  let start := if w.files.isDirectory input then input else input.parent
  let overrides : Overrides :=
    { testPrefix := r.testPrefix.map Datum.text, logLevel := r.level.map Datum.text }
  match Settings.load w.root w.files start overrides with
  | .ok s =>
    modify fun w => { w with threshold := s.logLevel }
    return some s
  | .error e =>
    match e with
    | .invalid _ | .malformed _ =>
      say (.badSettings e)
      return none
    | _ => throw (.settings e)

/-- The exit code of some results. -/
def exitCode (results : List FileResult) : Nat :=
  if results.any FileResult.failed then 1 else 0

/-- Expands the files of a directory into another one. -/
def expandDirectory (settings : Settings) (input output : Path) : Action Nat := do
  let sources := (← get).files.sources input
  if sources.isEmpty then
    say (.noSources input)
    return 0
  say (.expanding sources.length input)
  let results ← sources.mapM fun source => do
    let relative : Path := { parts := source.parts.drop input.parts.length }
    let r ← expandFile settings source (.file (output.join relative))
    return (relative.text, r)
  if 1 < results.length then
    let table ← summary results
    modify fun w => { w with printed := w.printed ++ table.lines }
  return exitCode (results.map Prod.snd)

/-- The command `expand`. -/
def runExpand (r : Request) : Action Nat := do
  let input := Path.ofText r.path
  let output := r.out.map Path.ofText
  let some settings ← loadSettings input r | return 1
  if (← get).files.isFile input then
    let result ← expandFile settings input (match output with
      | some p => .file p
      | none => .stdout)
    return exitCode [result]
  else
    match output with
    | none =>
      say .destinationMissing
      return 1
    | some output => expandDirectory settings input output

/-- The command `check`. -/
def runCheck (r : Request) : Action Nat := do
  let input := Path.ofText r.path
  let some settings ← loadSettings input r | return 1
  let files := (← get).files
  let sources := if files.isFile input then [input] else files.sources input
  let results ← sources.mapM fun source => expandFile settings source .nowhere
  let failed := results.filter FileResult.failed
  if !failed.isEmpty then
    say (.failures failed.length results.length)
    return 1
  say (.checked results.length (results.foldl (fun n r => n + r.interfaces) 0)
    (results.foldl (fun n r => n + r.implementations) 0))
  return 0

/-- Carries out a request. -/
def carryOut (r : Request) : Action Nat :=
  match r.verb with
  | .expand => runExpand r
  | .check => runCheck r

/-- How the program ends: with an exit code or a crash, what it wrote to the error output, and the world after
it. -/
structure Ending where
  outcome : Except Crash Nat
  stderr : String := ""
  world : World

/-- Runs the program. -/
def run (argv : List String) (w : World) : Ending :=
  match readRequest argv with
  | .ok request =>
    let (outcome, w) := (carryOut request).run w
    { outcome, world := w }
  | .error answer =>
    let reply := answer.reply
    { outcome := .ok reply.exit, stderr := reply.stderr,
      world := { w with stdout := w.stdout ++ reply.stdout } }

end Conformance.Command
