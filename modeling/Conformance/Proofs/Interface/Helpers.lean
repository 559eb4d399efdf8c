import Conformance.Proofs.Interface.Verdict

/-!
# The helpers of generated code

Each helper that the hidden method calls is compared with the judgement it stands for.  Whatever it is given, it ends
as the judgement says (`EndsAs`): it raises the same error, or an error of the same kind, or none, and leaves the same
state behind.
-/

namespace Conformance

open Source Conformance.Computation

/-- A run ends as a trial does, and returns `done` if it passes. -/
def Agrees {α : Type} (done : α) (x : Except Raised α × World) (out : Verdict × World) : Prop :=
  out.1.Holds done x.1 ∧ x.2 = out.2

/-- What is needed of a way of calling values and of the calls nested in it. -/
structure Calls (call inner : Call) : Prop where
  native : ∀ n args named, call (.native n) args named = n.call inner args named
  keepScope : call.KeepScope
  innerKeepScope : inner.KeepScope

section

variable (inner : Call) (w : World)

end

/-- Statements follow statements as trials follow trials. -/
theorem Agrees.append {call : Call} {ss ts : List Stmt} {first second : Trial} {w : World}
    (hfirst : Agrees none (executeAll call ss w) (first w))
    (hsecond : ∀ w', first w = (.passed, w') → Agrees none (executeAll call ts w') (second w')) :
    Agrees none (executeAll call (ss ++ ts) w) (first.andThen second w) := by
  obtain ⟨hholds, hworld⟩ := hfirst
  rw [executeAll_append, Trial.andThen]
  rcases hx : first w with ⟨verdict, w'⟩
  rw [hx] at hholds hworld
  rcases hy : executeAll call ss w with ⟨r, w''⟩
  rw [hy] at hholds hworld
  cases hworld
  cases verdict with
  | passed =>
    cases hholds
    exact hsecond _ hx
  | failed kind =>
    obtain ⟨e, he, hkind⟩ := hholds
    cases he
    exact ⟨⟨e, rfl, hkind⟩, rfl⟩
  | raised e =>
    cases hholds
    exact ⟨rfl, rfl⟩

end Conformance
