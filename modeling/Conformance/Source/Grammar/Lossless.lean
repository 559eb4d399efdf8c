import Conformance.Source.Grammar.Peg

/-!
# Reading loses nothing

`Derives` says how an expression can come to take tokens, whatever else it might have taken and however deep it nests.
All that is read is derived (`run_derives`), so what holds of every derivation holds of what is read.

What a parsing expression reads comes back as trees whose leaves are the tokens taken, in their order, and the
tokens left are those that follow:

    run rules n p ts = some (trees, rest) → leavesAll trees ++ rest = ts                            (run_lossless)
-/

namespace Conformance.Source

open SyntaxTree

theorem SyntaxTree.leavesAll_group (k : Kind) (xs : List SyntaxTree) : leavesAll [.node k xs] = leavesAll xs :=
  List.append_nil _

namespace Peg

variable {σ : Type}

/-! ## Combined expressions -/

section
variable {run : Peg σ → List Token → Read} {p : Peg σ} {ps : List (Peg σ)} {ts rest : List Token}
  {xs : List SyntaxTree}

theorem runSeq_cons_eq_some : runSeq run (p :: ps) ts = some (xs, rest) ↔
    ∃ ys mid zs, run p ts = some (ys, mid) ∧ runSeq run ps mid = some (zs, rest) ∧ xs = ys ++ zs := by
  constructor
  · intro h
    rw [runSeq] at h
    split at h
    · cases h
    · next ys mid hp =>
      split at h
      · cases h
      · next zs last hps =>
        cases h
        exact ⟨ys, mid, zs, hp, hps, rfl⟩
  · rintro ⟨ys, mid, zs, hp, hps, rfl⟩
    simp only [runSeq, hp, hps]

theorem runAlt_eq_some {r : List SyntaxTree × List Token} (h : runAlt run ps ts = some r) :
    ∃ p ∈ ps, run p ts = some r := by
  induction ps with
  | nil => cases h
  | cons p ps ih =>
    rw [runAlt] at h
    split at h
    · next hread =>
      cases h
      exact ⟨p, List.mem_cons_self, hread⟩
    · obtain ⟨q, hq, hread⟩ := ih h
      exact ⟨q, List.mem_cons_of_mem _ hq, hread⟩

/-- The step that is taken is one of the steps. -/
theorem runStep_eq_some {steps : List (Kind × Peg σ)} {k : Kind} (h : runStep run steps ts = some (k, xs, rest)) :
    ∃ p, (k, p) ∈ steps ∧ run p ts = some (xs, rest) := by
  induction steps with
  | nil => cases h
  | cons s steps ih =>
    obtain ⟨k', p⟩ := s
    rw [runStep] at h
    split at h
    · next hread =>
      cases h
      exact ⟨p, List.mem_cons_self, hread⟩
    · obtain ⟨q, hq, hread⟩ := ih h
      exact ⟨q, List.mem_cons_of_mem _ hq, hread⟩

end

/-! ## Derivations -/

/-- The expression may take tokens from the front, as trees, and leave the rest. -/
inductive Derives (rules : σ → Peg σ) : Peg σ → List Token → List SyntaxTree → List Token → Prop
  | tok {m t ts} : m.accepts t = true → Derives rules (tok m) (t :: ts) [.leaf t] ts
  | sym {s ts xs rest} : Derives rules (rules s) ts xs rest → Derives rules (sym s) ts xs rest
  | nil {ts} : Derives rules (seq []) ts [] ts
  | cons {p ps ts xs mid ys rest} : Derives rules p ts xs mid → Derives rules (seq ps) mid ys rest →
      Derives rules (seq (p :: ps)) ts (xs ++ ys) rest
  | alt {p ps ts xs rest} : p ∈ ps → Derives rules p ts xs rest → Derives rules (alt ps) ts xs rest
  | done {p ts} : Derives rules (many p) ts [] ts
  | again {p ts xs mid ys rest} : Derives rules p ts xs mid → Derives rules (many p) mid ys rest →
      Derives rules (many p) ts (xs ++ ys) rest
  | ahead {p ts} : Derives rules (ahead p) ts [] ts
  | never {p ts} : Derives rules (never p) ts [] ts
  | stop : Derives rules stop [] [] []
  | node {k p ts xs rest} : Derives rules p ts xs rest → Derives rules (node k p) ts [.node k xs] rest
  | build {s p ts xs rest} : Derives rules p ts xs rest → Derives rules (build s p) ts [.node (s.kind xs) xs] rest
  | only {c p ts xs rest} : Derives rules p ts xs rest → Derives rules (only c p) ts xs rest
  | first {p steps ts xs rest} : Derives rules p ts xs rest → Derives rules (extend p steps) ts xs rest
  | step {p steps k q ts xs mid ys rest} : Derives rules (extend p steps) ts xs mid → (k, q) ∈ steps →
      Derives rules q mid ys rest → Derives rules (extend p steps) ts [.node k (xs ++ ys)] rest

section
variable {rules : σ → Peg σ} {run : Peg σ → List Token → Read}

theorem runSeq_derives (h : ∀ {p ts xs rest}, run p ts = some (xs, rest) → Derives rules p ts xs rest)
    {ps : List (Peg σ)} {ts rest : List Token} {xs : List SyntaxTree} (hr : runSeq run ps ts = some (xs, rest)) :
    Derives rules (seq ps) ts xs rest := by
  induction ps generalizing ts xs with
  | nil =>
    cases hr
    exact .nil
  | cons p ps ih =>
    obtain ⟨ys, mid, zs, hp, hps, rfl⟩ := runSeq_cons_eq_some.mp hr
    exact .cons (h hp) (ih hps)

theorem runMany_derives {p : Peg σ} (h : ∀ {ts xs rest}, run p ts = some (xs, rest) → Derives rules p ts xs rest)
    (n : Nat) (ts : List Token) : Derives rules (many p) ts (runMany (run p) n ts).1 (runMany (run p) n ts).2 := by
  induction n generalizing ts with
  | zero => exact .done
  | succ n ih =>
    rw [runMany]
    split
    · exact .done
    · next hr =>
      split
      · exact .again (h hr) (ih _)
      · exact .done

theorem runExtend_derives (h : ∀ {p ts xs rest}, run p ts = some (xs, rest) → Derives rules p ts xs rest)
    {p : Peg σ} {steps : List (Kind × Peg σ)} (n : Nat) {all ts : List Token} {xs : List SyntaxTree}
    (hx : Derives rules (extend p steps) all xs ts) : Derives rules (extend p steps) all
      (runExtend run steps n xs ts).1 (runExtend run steps n xs ts).2 := by
  induction n generalizing xs ts with
  | zero => exact hx
  | succ n ih =>
    rw [runExtend]
    split
    · exact hx
    · next hr =>
      obtain ⟨q, hq, hread⟩ := runStep_eq_some hr
      exact ih (.step hx hq (h hread))

/-- What is read is derived. -/
theorem run_derives {n : Nat} {p : Peg σ} {ts : List Token} {r : List SyntaxTree × List Token}
    (h : Peg.run rules n p ts = some r) : Derives rules p ts r.1 r.2 := by
  induction n generalizing p ts r with
  | zero => cases h
  | succ n ih =>
    unfold Peg.run at h
    cases p with
    | tok m =>
      cases ts with
      | nil => cases h
      | cons t ts =>
        simp only at h
        split at h
        · next haccepts =>
          cases h
          exact .tok haccepts
        · cases h
    | sym s => exact .sym (ih h)
    | seq ps => exact runSeq_derives ih h
    | alt ps =>
      obtain ⟨p, hp, hread⟩ := runAlt_eq_some h
      exact .alt hp (ih hread)
    | many p =>
      cases h
      exact runMany_derives ih _ _
    | ahead p =>
      obtain ⟨_, _, heq⟩ := Option.map_eq_some_iff.mp h
      cases heq
      exact .ahead
    | never p =>
      simp only at h
      split at h <;> cases h
      exact .never
    | stop =>
      simp only at h
      split at h <;> cases h
      next hempty =>
        cases List.isEmpty_iff.mp hempty
        exact .stop
    | node k p =>
      obtain ⟨_, hread, heq⟩ := Option.map_eq_some_iff.mp h
      cases heq
      exact .node (ih hread)
    | build s p =>
      obtain ⟨_, hread, heq⟩ := Option.map_eq_some_iff.mp h
      cases heq
      exact .build (ih hread)
    | only c p => exact .only (ih (Option.filter_eq_some_iff.mp h).1)
    | extend p steps =>
      obtain ⟨r, hread, heq⟩ := Option.map_eq_some_iff.mp h
      cases heq
      exact runExtend_derives ih _ (.first (ih hread))

/-- The leaves of what is derived are the tokens that were taken. -/
theorem Derives.lossless {p : Peg σ} {ts rest : List Token} {xs : List SyntaxTree} (h : Derives rules p ts xs rest) :
    leavesAll xs ++ rest = ts := by
  induction h with
  | tok _ => rfl
  | nil | done | ahead | never | stop => rfl
  | sym _ ih | alt _ _ ih | only _ ih | first _ ih => exact ih
  | cons _ _ ih ih' | again _ _ ih ih' => rw [leavesAll_append, List.append_assoc, ih', ih]
  | node _ ih | build _ ih => rwa [leavesAll_group]
  | step _ _ _ ih ih' => rw [leavesAll_group, leavesAll_append, List.append_assoc, ih', ih]

/-- Reading takes tokens from the front and keeps every one of them as a leaf. -/
theorem run_lossless {n : Nat} {p : Peg σ} {ts rest : List Token} {xs : List SyntaxTree}
    (h : Peg.run rules n p ts = some (xs, rest)) : leavesAll xs ++ rest = ts :=
  (run_derives h).lossless

end

end Peg

end Conformance.Source
