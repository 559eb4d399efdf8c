import Conformance.Console.Markup
import Conformance.Diagnostic
import Conformance.Level
import Conformance.Text.Lines
import Conformance.Text.Width

/-!
# Log records

A record is a message with a level.  It is shown if its level is at least the one in force: the level in a
column of its own, the lines of the message beside it.
-/

namespace Conformance

open Text

/-- A message for the log. -/
structure Record where
  level : Level
  message : String
  deriving DecidableEq, Repr, Inhabited

/-- Whether a record is shown while a level is in force. -/
def Record.passes (threshold : Level) (r : Record) : Bool :=
  threshold.rank ≤ r.level.rank

/-- The lines of a text as they are shown. -/
def displayLines (s : String) : List String :=
  (s.splitOn "\n").map fun l => String.ofList (expandTabs 0 l.toList)

/-- Lines of a message beside the name of its level. -/
def besideLevel (level : Level) : List String → List String
  | [] => []
  | first :: rest => (padRight 8 level.name ++ " " ++ first) :: rest.map fun l => spaces 9 ++ l

/-- The lines that a record is shown as. -/
def Record.display (r : Record) : Except Markup.MarkupError (List String) := do
  let text ← Markup.shown r.message
  return (besideLevel r.level (displayLines text)).map trimRight

/-- The message of a diagnostic: its lines, each in a tag. -/
def Diagnostic.logMessage (d : Diagnostic) : String :=
  match Text.lines d.render with
  | [] => ""
  | head :: notes =>
    "[diag.error]" ++ Markup.escape head ++ "[/diag.error]" ++
      String.join (notes.map fun n => "\n[diag.note]" ++ Markup.escape n ++ "[/diag.note]")

/-- The record of a diagnostic. -/
def Diagnostic.record (d : Diagnostic) : Record :=
  { level := .error, message := d.logMessage }

/-- The lines that text without markup is printed as. -/
def printedLines (s : String) : List String :=
  (displayLines (String.ofList (s.toList.filter fun c => !Markup.isHidden c))).map trimRight

end Conformance
