import Mathlib.Data.List.Infix
import Conformance.Proofs.Evaluation.Step
import Conformance.Proofs.Program.Reading

/-!
# What running a test means

The meaning of the tests of an interface, given without generated code and without its helpers.  A `Trial` runs in a
state, ends with a verdict and leaves a state behind.  `attemptInterface` checks the requirements, says how many
tests there are, and attempts them one by one up to the first that does not pass:

* a test without a result passes if it returns nothing;
* a test that returns a result passes if it can be unwrapped;
* a test that should fail passes if it raises an ordinary error that carries the expected text.
-/

namespace Conformance

open Source

/-! ## Verdicts -/

/-- How a run is judged. -/
inductive Verdict where
  | passed
  /-- It ends with an error of this kind. -/
  | failed (kind : ErrorKind)
  /-- It ends with this very error. -/
  | raised (e : Raised)

/-- A run that ends with this result bears the verdict out.  If it passes, it returns `done`. -/
def Verdict.Holds {α : Type} (done : α) : Verdict → Except Raised α → Prop
  | passed, r => r = .ok done
  | failed kind, r => ∃ e, r = .error e ∧ e.kind = kind
  | raised e, r => r = .error e

/-- A run that is judged. -/
abbrev Trial := World → Verdict × World

namespace Trial

def pass : Trial := fun w => (.passed, w)

def fail (kind : ErrorKind) : Trial := fun w => (.failed kind, w)

/-- Goes on with the value of a computation.  If that raises an error, there is nothing more to judge. -/
def after {α : Type} (x : Run α) (next : α → Trial) : Trial := fun w =>
  match x w with
  | (.ok a, w') => next a w'
  | (.error e, w') => (.raised e, w')

/-- Goes on if the first trial passes. -/
def andThen (first second : Trial) : Trial := fun w =>
  match first w with
  | (.passed, w') => second w'
  | (v, w') => (v, w')

end Trial

/-! ## One test -/

/-- Prints a text in a line of its own.  A module may have bound `print` to something else. -/
def announce (call : Call) (text : String) : Trial := fun w =>
  match w.outer? "print" with
  | some p => Trial.after (call p [.text text] []) (fun _ => .pass) w
  | none => (.passed, { w with printed := w.printed ++ Text.lines (text ++ "\n") })

/-- The function of a test: what its name stands for once it is defined. -/
def definedTest (call : Call) (t : AssociatedTest) : Run Value := do
  let _ ← executeAll call (Stmt.ofStatement t.function.statement)
  lookupName t.name

/-- Whether nothing was returned. -/
def judgeUnit : Value → Trial
  | .nothing => .pass
  | _ => .fail .type

/-- Whether a result stands for success.  Any other value is asked to unwrap itself. -/
def judgeResult (inner : Call) (v : Value) : Trial := fun w =>
  match v with
  | .ok _ => (.passed, w)
  | .err _ => (.failed .unwrap, w)
  | v =>
    match (attribute? w.classes v "unwrap").filter Value.isCallable with
    | some method => Trial.after (inner method [] []) (fun _ => .pass) w
    | none => (.failed .type, w)

/-- What an error carries: a panic any value, another error its message. -/
def Raised.carried (e : Raised) : Value :=
  if e.kind.derivesFrom .panic then e.args.head?.getD .nothing else .text e.message

/-- Whether what an error carries is text, and contains the expected text. -/
def judgeText : Option String → Option String → Trial
  | none, _ => .fail .panicPayload
  | some _, none => .fail .type
  | some message, some part => if part.toList <:+: message.toList then .pass else .fail .assertion

/-- Whether an error is the expected one; nothing may be expected of it. -/
def judgePanic (e : Raised) : Value → Trial
  | .nothing => .pass
  | expected => judgeText e.carried.text? expected.text?

/-- Runs a test and judges what comes of it.  The text that an error should carry is evaluated afterwards. -/
def judge (call inner : Call) (kind : TestKind) (f : Value) (args : List Value) : Trial :=
  match kind with
  | .standard => .after (call f args []) judgeUnit
  | .returnsResult _ =>
    .after (call f args []) fun v => .after (bindName Naming.result v) fun _ => judgeResult inner v
  | .shouldPanic expected =>
    let wanted := evaluate? call (expected.map Expr.ofTree)
    fun w =>
      match inner f args [] w with
      | (.ok _, w') => Trial.after wanted (fun _ => .fail .assertion) w'
      | (.error e, w') =>
        if e.kind.isOrdinary then Trial.after wanted (fun v => judgePanic e (v.getD .nothing)) w'
        else (.raised e, w')

/-! ## All tests -/

/-- What the function of a test is given. -/
def AssociatedTest.given (t : AssociatedTest) (implementer : Value) : List Value :=
  if t.takesType then [implementer] else []

/-- Attempts one test: it is defined, announced and judged. -/
def attempt (call inner : Call) (interface : String) (implementer : Value) (t : AssociatedTest) : Trial :=
  .after (definedTest call t) fun f =>
    (announce call ("test " ++ interface ++ "::" ++ t.name)).andThen
      (judge call inner t.kind f (t.given implementer))

end Conformance
