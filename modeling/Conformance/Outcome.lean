import Conformance.Evaluation.World

/-!
# Outcomes of tests

A test that returns a result is unwrapped, a test without a result has to return nothing, and a test that should
fail is run with its error captured.  Failures of the tested implementation are assertion errors, misuse is a
type error.
-/

namespace Conformance

/-! ## Results -/

/-- The error of unwrapping a result that stands for a failure. -/
def Raised.ofUnwrap (e : Value) : Raised :=
  .say .unwrap ("called `unwrap()` on an `Err` value: " ++ e.shown)

/-- The value of a result.  Other values can bring a way of unwrapping along, given by `method`. -/
def unwrapWith (method : Value → Option (Run Value)) : Value → Run Value
  | .ok v => return v
  | .err e => throw (.ofUnwrap e)
  | v =>
    match method v with
    | some r => r
    | none => raising .type ("expected a result value, found " ++ v.typeName)

/-- Checks that a test with a name returned nothing. -/
def expectUnit (v name : Value) : Except Raised Unit :=
  match v with
  | .nothing => return
  | v => throw (.say .type ("associated test `" ++ name.plain ++ "` returned " ++ v.shown ++
      "; tests without a result annotation must return None"))

/-! ## Captured errors -/

/-- How a call ended. -/
structure Outcome where
  value : Value := .nothing
  error : Option Raised := none
  deriving Inhabited

namespace Outcome

def completed (o : Outcome) : Bool := o.error.isNone

/-- What an error carries: any value if it was raised with one, and otherwise its message. -/
def payload (o : Outcome) : Value :=
  match o.error with
  | none => .nothing
  | some r => if r.kind.derivesFrom .panic then r.args.head?.getD .nothing else .text r.message

/-- An outcome as a value. -/
def toValue (o : Outcome) : Value :=
  .object "Outcome" [("value", o.value),
    ("exception", match o.error with
      | some r => .error r.kind r.args
      | none => .nothing)]

/-- The outcome that a value is. -/
def ofValue? : Value → Option Outcome
  | .object "Outcome" [("value", v), ("exception", .error kind args)] =>
    some { value := v, error := some { kind, args } }
  | .object "Outcome" [("value", v), ("exception", .nothing)] => some { value := v }
  | _ => none

end Outcome

/-- Runs a computation and captures its error, if it is an ordinary one. -/
def catchUnwind (r : Run Value) : Run Outcome :=
  fun w =>
    match r w with
    | (.ok v, w) => (.ok { value := v }, w)
    | (.error e, w) => if e.kind.isOrdinary then (.ok { error := some e }, w) else (.error e, w)

/-- The text that an error carries. -/
def panicMessage (payload : Value) : Except Raised String :=
  match payload.text? with
  | some s => return s
  | none => throw (.say .panicPayload
      ("expected panic with string value, found non-string value of type " ++ payload.typeName))

/-- Whether a text occurs in another one. -/
def occursIn (part : List Char) : List Char → Bool
  | [] => part.isEmpty
  | c :: cs => part.isPrefixOf (c :: cs) || occursIn part cs

/-- Checks that a test failed and, if a text is expected, that its message contains it. -/
def expectPanic (o : Outcome) (expected : Value) : Except Raised Unit := do
  if o.completed then throw (.say .assertion "test did not panic as expected")
  match expected with
  | .nothing => return
  | expected =>
    let message ← panicMessage o.payload
    match expected.text? with
    | none => throw (.say .type
        ("'in <string>' requires string as left operand, not " ++ expected.typeName))
    | some part =>
      if occursIn part.toList message.toList then return
      else throw (.say .assertion
        ("panic did not contain expected string\n      panic message: " ++ Text.quoted message ++
          "\n expected substring: " ++ Text.quoted part))

end Conformance
