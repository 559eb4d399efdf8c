import Conformance.Proofs.Expansion.Basic

/-!
# Two runs side by side

To compare two expansions is to carry both out in step.  `EndAlike` says that both return or both fail, and what is
then known of their results and of the progress each leaves behind.  A step that ends alike can be followed by steps
that do, so a comparison goes along the walk through a module.
-/

namespace Conformance

variable {α β α' β' : Type}

/-- Both runs return, with `Q` between what they leave behind, or both fail, with `E` between it. -/
def EndAlike (Q : α → β → Progress → Progress → Prop) (E : Failure → Failure → Progress → Progress → Prop) :
    Except Failure α × Progress → Except Failure β × Progress → Prop
  | (.ok a, p), (.ok b, q) => Q a b p q
  | (.error e, p), (.error f, q) => E e f p q
  | _, _ => False

namespace EndAlike

variable {Q : α → β → Progress → Progress → Prop} {Q' : α' → β' → Progress → Progress → Prop}
  {E : Failure → Failure → Progress → Progress → Prop}

/-- Runs that end alike are followed by runs that do. -/
theorem bind {x : Expand α} {y : Expand β} {f : α → Expand α'} {g : β → Expand β'} {p q : Progress}
    (h : EndAlike Q E (x p) (y q))
    (hnext : ∀ a b p' q', x p = (.ok a, p') → y q = (.ok b, q') → Q a b p' q' →
      EndAlike Q' E (f a p') (g b q')) :
    EndAlike Q' E ((x >>= f) p) ((y >>= g) q) := by
  rw [Computation.bind_apply, Computation.bind_apply]
  rcases hx : x p with ⟨e | a, p'⟩ <;> rcases hy : y q with ⟨e' | b, q'⟩ <;> rw [hx, hy] at h
  · exact h
  · exact h.elim
  · exact h.elim
  · exact hnext a b p' q' hx hy h

/-- Runs that end alike and whose results are put into something else. -/
theorem map {x : Expand α} {y : Expand β} {f : α → α'} {g : β → β'} {p q : Progress} (h : EndAlike Q E (x p) (y q))
    (hnext : ∀ a b p' q', Q a b p' q' → Q' (f a) (g b) p' q') :
    EndAlike Q' E ((x >>= fun a => pure (f a)) p) ((y >>= fun b => pure (g b)) q) :=
  h.bind fun a b p' q' _ _ hq => hnext a b p' q' hq

end EndAlike

end Conformance
