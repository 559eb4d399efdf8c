import Conformance.Proofs.Expansion.TwoRuns

/-!
# Failures up to their places

Two checks are alike if both return, or both fail and say the same about it: failures of one kind, with one message and
the same notes, wherever these point.  Two runs are alike if besides they leave the same progress behind.
-/

namespace Conformance

open Source

/-- What a failure says, without where: its kind, its message and the messages of its notes. -/
def Failure.wording : Failure → Except LiteralError (DiagnosticKind × String × List String)
  | fault f => .ok (f.kind, f.main.message, f.notes.map Remark.message)
  | literal e => .error e

theorem Failure.wording_locate (find : Extent → Option Span) (fallback : Option Span) (e : Failure) :
    (e.locate find fallback).wording = e.wording := by
  cases e with
  | fault f =>
    simp only [locate, wording, Fault.locate, List.map_map, Function.comp_def]
    rfl
  | literal e => rfl

variable {α β α' β' : Type}

/-- Both checks return, with `R` between the results, or both fail with the same wording. -/
inductive Alike (R : α → β → Prop) : Except Failure α → Except Failure β → Prop
  | ok {a : α} {b : β} : R a b → Alike R (.ok a) (.ok b)
  | error {e f : Failure} : e.wording = f.wording → Alike R (.error e) (.error f)

namespace Alike

variable {R : α → β → Prop} {R' : α' → β' → Prop}

theorem bind {x : Except Failure α} {y : Except Failure β} {f : α → Except Failure α'} {g : β → Except Failure β'}
    (h : Alike R x y) (hnext : ∀ a b, x = .ok a → y = .ok b → R a b → Alike R' (f a) (g b)) :
    Alike R' (x >>= f) (y >>= g) := by
  cases h with
  | ok hab => exact hnext _ _ rfl rfl hab
  | error he => exact .error he

theorem violated_congr {v v' : Violation} {node node' : Option Extent} {notes notes' : List (String × Option Extent)}
    (hv : v = v') (hnotes : notes.map Prod.fst = notes'.map Prod.fst) :
    Alike R (Conformance.violated v node notes) (Conformance.violated v' node' notes') := by
  subst hv
  refine .error ?_
  simp only [Failure.wording, Violation.fault, List.map_map, Function.comp_def]
  exact congrArg (fun messages => Except.ok (v.kind, v.message, messages)) hnotes

/-- The same violation, wherever it is. -/
theorem violated {v : Violation} {node node' : Option Extent} {notes notes' : List (String × Option Extent)}
    (hnotes : notes.map Prod.fst = notes'.map Prod.fst) :
    Alike R (Conformance.violated v node notes) (Conformance.violated v node' notes') :=
  violated_congr rfl hnotes

/-- A rule that holds of both or of neither. -/
theorem rule {p p' : Prop} [Decidable p] [Decidable p'] {v : Violation} {node node' : Option Extent}
    {γ γ' : Type} {k : γ → Except Failure α} {k' : γ' → Except Failure β} {x : Except Failure α} {y : Except Failure β}
    (hp : p ↔ p') (h : Alike R x y) :
    Alike R (if p then Conformance.violated v node >>= k else x)
      (if p' then Conformance.violated v node' >>= k' else y) := by
  by_cases hholds : p
  · rw [if_pos hholds, if_pos (hp.mp hholds)]
    exact .violated rfl
  · rw [if_neg hholds, if_neg (hp.not.mp hholds)]
    exact h

/-- Items are taken one after the other, so traversals are alike if they are alike for each item. -/
theorem mapM {f : α → Except Failure α'} {g : β → Except Failure β'} {xs : List α} {ys : List β}
    (h : List.Forall₂ (fun x y => Alike R' (f x) (g y)) xs ys) : Alike (List.Forall₂ R') (xs.mapM f) (ys.mapM g) := by
  induction h with
  | nil => exact .ok .nil
  | cons hxy _ ih =>
    rw [List.mapM_cons, List.mapM_cons]
    exact hxy.bind fun a b _ _ hab => ih.bind fun as bs _ _ hrest => .ok (.cons hab hrest)

theorem foldlM {f : α' → α → Except Failure α'} {g : β' → β → Except Failure β'} {xs : List α} {ys : List β}
    (h : List.Forall₂ (fun x y => ∀ a b, R' a b → Alike R' (f a x) (g b y)) xs ys) :
    ∀ {a : α'} {b : β'}, R' a b → Alike R' (xs.foldlM f a) (ys.foldlM g b) := by
  induction h with
  | nil => exact fun hab => .ok hab
  | cons hxy _ ih => exact fun hab => (hxy _ _ hab).bind fun _ _ _ _ hnext => ih hnext

/-- Checks that are alike to a third one are alike. -/
theorem meet {γ : Type} {u : α → γ} {v : β → γ} {x : Except Failure α} {y : Except Failure β} {z : Except Failure γ}
    (hx : Alike (fun a c => u a = c) x z) (hy : Alike (fun b c => v b = c) y z) :
    Alike (fun a b => u a = v b) x y := by
  cases hx with
  | ok ha =>
    cases hy with
    | ok hb => exact .ok (ha.trans hb.symm)
  | error he =>
    cases hy with
    | error hf => exact .error (he.trans hf.symm)

/-- A check that looks past places is alike on inputs that differ in them only. -/
theorem of_natural {f : α → Except Failure β} {u : α → α} {v : β → β}
    (h : ∀ a, Alike (fun b c => v b = c) (f a) (f (u a))) {a a' : α} (ha : u a = u a') :
    Alike (fun b b' => v b = v b') (f a) (f a') :=
  (h a).meet (ha ▸ h a')

theorem mapM_natural {f : α → Except Failure β} {u : α → α} {v : β → β}
    (h : ∀ a, Alike (fun b c => v b = c) (f a) (f (u a))) (xs : List α) :
    Alike (fun bs cs => bs.map v = cs) (xs.mapM f) ((xs.map u).mapM f) := by
  induction xs with
  | nil => exact .ok rfl
  | cons a xs ih =>
    rw [List.map_cons, List.mapM_cons, List.mapM_cons]
    refine (h a).bind fun b c _ _ hb => ih.bind fun bs cs _ _ hbs => .ok ?_
    rw [List.map_cons, hb, hbs]

end Alike

/-! ## Runs -/

/-- Both runs return, with `R` between the results, or both fail with the same wording; and they leave the same
progress behind. -/
def RunAlike (R : α → β → Prop) : Except Failure α × Progress → Except Failure β × Progress → Prop :=
  EndAlike (fun a b p q => R a b ∧ p = q) (fun e f p q => e.wording = f.wording ∧ p = q)

namespace RunAlike

variable {R : α → β → Prop} {R' : α' → β' → Prop}

theorem bind {x : Expand α} {y : Expand β} {f : α → Expand α'} {g : β → Expand β'} {p : Progress}
    (h : RunAlike R (x p) (y p))
    (hnext : ∀ a b q, x p = (.ok a, q) → y p = (.ok b, q) → R a b → RunAlike R' (f a q) (g b q)) :
    RunAlike R' ((x >>= f) p) ((y >>= g) p) := by
  refine EndAlike.bind h ?_
  rintro a b q _ hx hy ⟨hab, rfl⟩
  exact hnext a b q hx hy hab

/-- Runs that are alike and whose results are put into something else. -/
theorem map {x : Expand α} {y : Expand β} {f : α → α'} {g : β → β'} {p : Progress} (h : RunAlike R (x p) (y p))
    (hnext : ∀ a b q, x p = (.ok a, q) → y p = (.ok b, q) → R a b → R' (f a) (g b)) :
    RunAlike R' ((x >>= fun a => pure (f a)) p) ((y >>= fun b => pure (g b)) p) :=
  h.bind fun a b q hx hy hab => ⟨hnext a b q hx hy hab, rfl⟩

theorem mono {S : α → β → Prop} {x : Except Failure α × Progress} {y : Except Failure β × Progress}
    (h : RunAlike R x y) (hRS : ∀ a b, R a b → S a b) : RunAlike S x y := by
  obtain ⟨_ | a, p⟩ := x <;> obtain ⟨_ | b, q⟩ := y
  · exact h
  · exact h
  · exact h
  · exact ⟨hRS a b h.1, h.2⟩

/-- What is known of two runs that are alike. -/
theorem cases {x : Except Failure α × Progress} {y : Except Failure β × Progress} (h : RunAlike R x y) :
    ∃ q, (∃ a b, x = (.ok a, q) ∧ y = (.ok b, q) ∧ R a b) ∨
      (∃ e f, x = (.error e, q) ∧ y = (.error f, q) ∧ e.wording = f.wording) := by
  obtain ⟨e | a, p⟩ := x <;> obtain ⟨f | b, q⟩ := y
  · obtain ⟨hwording, rfl⟩ := h
    exact ⟨p, .inr ⟨e, f, rfl, rfl, hwording⟩⟩
  · exact h.elim
  · exact h.elim
  · obtain ⟨hab, rfl⟩ := h
    exact ⟨p, .inl ⟨a, b, rfl, rfl, hab⟩⟩

/-- A check inside a definition fails with the same wording wherever the definition is. -/
theorem checking {x : Except Failure α} {y : Except Failure β} (h : Alike R x y) (s : Surroundings)
    (definition definition' : Option Extent) (p : Progress) :
    RunAlike R (s.checking definition x p) (s.checking definition' y p) := by
  cases h with
  | ok hab => exact ⟨hab, rfl⟩
  | error he =>
    refine ⟨?_, rfl⟩
    rw [Failure.wording_locate, Failure.wording_locate, he]

end RunAlike

end Conformance
