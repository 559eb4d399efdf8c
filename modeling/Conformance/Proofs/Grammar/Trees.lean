import Conformance.Source.Grammar.Lossless

/-!
# The trees that a grammar reads

What is known of every tree that is read follows from how trees are made.  If the groups that expressions make have a
property whenever what they hold has it, for all expressions that pass a check, then so has every tree that is read by
a grammar whose expressions pass it (`Derives.forall_mem`).
-/

namespace Conformance.Source.Peg

variable {σ : Type}

section
variable (check : Peg σ → Bool)

mutual

/-- Whether an expression and all its parts pass a check. -/
def every : Peg σ → Bool
  | tok m => check (tok m)
  | sym s => check (sym s)
  | seq ps => check (seq ps) && everyPart ps
  | alt ps => check (alt ps) && everyPart ps
  | many p => check (many p) && p.every
  | ahead p => check (ahead p) && p.every
  | never p => check (never p) && p.every
  | stop => check stop
  | node k p => check (node k p) && p.every
  | build s p => check (build s p) && p.every
  | only c p => check (only c p) && p.every
  | extend p steps => check (extend p steps) && (p.every && everyStep steps)

def everyPart : List (Peg σ) → Bool
  | [] => true
  | p :: ps => p.every && everyPart ps

def everyStep : List (Kind × Peg σ) → Bool
  | [] => true
  | (_, p) :: steps => p.every && everyStep steps

end

variable {check}

theorem everyPart_iff {ps : List (Peg σ)} : everyPart check ps = true ↔ ∀ p ∈ ps, p.every check = true := by
  induction ps with
  | nil => simp [everyPart]
  | cons p ps ih => simp [everyPart, ih]

theorem everyStep_iff {steps : List (Kind × Peg σ)} :
    everyStep check steps = true ↔ ∀ s ∈ steps, s.2.every check = true := by
  induction steps with
  | nil => simp [everyStep]
  | cons s steps ih => simp [everyStep, ih]

theorem check_of_every {p : Peg σ} (h : p.every check = true) : check p = true := by
  cases p <;> simp only [every, Bool.and_eq_true] at h <;> first | exact h | exact h.1

end

/-- Trees have a property that all leaves have, and all groups if what they hold has it. -/
theorem Derives.forall_mem {rules : σ → Peg σ} {check : Peg σ → Bool} {P : SyntaxTree → Prop}
    (hrules : ∀ s, (rules s).every check = true) (hseq : ∀ ps, check (.seq ps) = true) (hleaf : ∀ t, P (.leaf t))
    (hnode : ∀ {k p ts xs rest}, check (.node k p) = true → Derives rules p ts xs rest → (∀ x ∈ xs, P x) →
      P (.node k xs))
    (hbuild : ∀ {s p ts xs rest}, check (.build s p) = true → Derives rules p ts xs rest → (∀ x ∈ xs, P x) →
      P (.node (s.kind xs) xs))
    (hstep : ∀ {p steps k q ts xs mid ys rest}, check (.extend p steps) = true → (k, q) ∈ steps →
      Derives rules (.extend p steps) ts xs mid → Derives rules q mid ys rest → (∀ x ∈ xs ++ ys, P x) →
      P (.node k (xs ++ ys)))
    {p : Peg σ} {ts rest : List Token} {xs : List SyntaxTree} (h : Derives rules p ts xs rest)
    (hp : p.every check = true) : ∀ x ∈ xs, P x := by
  induction h with
  | tok => exact List.forall_mem_singleton.mpr (hleaf _)
  | sym _ ih => exact ih (hrules _)
  | nil | done | ahead | never | stop => simp
  | cons _ _ ih ih' =>
    obtain ⟨hfirst, hmore⟩ := List.forall_mem_cons.mp (everyPart_iff.mp (Bool.and_eq_true_iff.mp hp).2)
    exact List.forall_mem_append.mpr ⟨ih hfirst, ih' (Bool.and_eq_true_iff.mpr ⟨hseq _, everyPart_iff.mpr hmore⟩)⟩
  | alt hmem _ ih => exact ih (everyPart_iff.mp (Bool.and_eq_true_iff.mp hp).2 _ hmem)
  | again _ _ ih ih' => exact List.forall_mem_append.mpr ⟨ih (Bool.and_eq_true_iff.mp hp).2, ih' hp⟩
  | node hread ih =>
    obtain ⟨hcheck, hp⟩ := Bool.and_eq_true_iff.mp hp
    exact List.forall_mem_singleton.mpr (hnode hcheck hread (ih hp))
  | build hread ih =>
    obtain ⟨hcheck, hp⟩ := Bool.and_eq_true_iff.mp hp
    exact List.forall_mem_singleton.mpr (hbuild hcheck hread (ih hp))
  | only _ ih => exact ih (Bool.and_eq_true_iff.mp hp).2
  | first _ ih => exact ih (Bool.and_eq_true_iff.mp (Bool.and_eq_true_iff.mp hp).2).1
  | step hfront hmem hread ih ih' =>
    obtain ⟨hcheck, hparts⟩ := Bool.and_eq_true_iff.mp hp
    have hq := everyStep_iff.mp (Bool.and_eq_true_iff.mp hparts).2 _ hmem
    exact List.forall_mem_singleton.mpr
      (hstep hcheck hmem hfront hread (List.forall_mem_append.mpr ⟨ih hp, ih' hq⟩))

end Conformance.Source.Peg
