import Conformance.Console.Logger
import Conformance.Text.Quoted

/-!
# Sessions

What a program does with the console and the logger, one operation after the other.  An operation that is refused
leaves the logger as it is, and the session goes on.
-/

namespace Conformance.Logger

open Text

/-- Something that is done with the console or the logger. -/
inductive Operation where
  /-- Installs a console. -/
  | setConsole (id : Nat)
  /-- Installs a console that is made for it, under the number that it gets. -/
  | resetConsole (id : Nat)
  /-- Puts a level in force, by its name. -/
  | setLevel (level : String)
  /-- Logs a record for a name. -/
  | log (target : String) (r : Record)
  deriving DecidableEq, Repr

/-- A message to the logger itself. -/
def Operation.say (level : Level) (message : String) : Operation := .log name { level, message }

/-- A diagnostic to the logger itself. -/
def Operation.report (d : Diagnostic) : Operation := .log name d.record

/-- Why an operation is refused. -/
inductive Refusal where
  | unknownLevel (level : String)
  | markup (e : Markup.MarkupError)
  deriving DecidableEq, Repr

def Refusal.message : Refusal → String
  | unknownLevel level => "Unknown level: " ++ quoted level
  | markup e => e.message

/-- What comes of an operation: the lines that are printed, with the console they are printed on. -/
structure Reply where
  printed : List (Nat × List String) := []
  refusal : Option Refusal := none
  deriving DecidableEq, Repr

/-- Carries out an operation. -/
def step (l : Logger) : Operation → Reply × Logger
  | .setConsole id => ({}, l.install id)
  | .resetConsole id => ({}, l.install id)
  | .setLevel level =>
    match thresholdOf? level with
    | some threshold => ({}, l.setLevel threshold)
    | none => ({ refusal := some (.unknownLevel level) }, l)
  | .log target r =>
    match l.emit target r with
    | .ok printed => ({ printed }, l)
    | .error e => ({ refusal := some (.markup e) }, l)

/-- Carries out a session. -/
def run (l : Logger) : List Operation → List Reply × Logger
  | [] => ([], l)
  | op :: ops =>
    let (reply, l) := l.step op
    let (replies, l) := l.run ops
    (reply :: replies, l)

end Conformance.Logger
