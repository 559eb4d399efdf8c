import Conformance.Proofs.Grammar.Settled

/-!
# Reading looks at spelling only

A token is spelled by its kind and text; its white space and its place do not matter to the grammar.  Reading tokens
that are spelled alike gives trees that are spelled alike (`read_spelling`).
-/

namespace Conformance.Source

/-- The token without its white space and place. -/
def Token.spelling (t : Token) : Token := { kind := t.kind, text := t.text }

namespace SyntaxTree

mutual

/-- The tree without white space and places. -/
def spelling : SyntaxTree → SyntaxTree
  | leaf t => leaf t.spelling
  | node k children => node k (spellings children)

def spellings : List SyntaxTree → List SyntaxTree
  | [] => []
  | t :: ts => t.spelling :: spellings ts

end

theorem spellings_eq_map (ts : List SyntaxTree) : spellings ts = ts.map spelling := by
  induction ts with
  | nil => rfl
  | cons t ts ih => rw [spellings, ih, List.map_cons]

@[simp] theorem spelling_leaf (t : Token) : (leaf t).spelling = leaf t.spelling := rfl

@[simp] theorem spelling_node (k : Kind) (ts : List SyntaxTree) : (node k ts).spelling = node k (ts.map spelling) := by
  rw [spelling, spellings_eq_map]

@[simp] theorem is_spelling (k : Kind) (t : SyntaxTree) : t.spelling.is k = t.is k := by
  cases t <;> rfl

@[simp] theorem isOperator_spelling (s : String) (t : SyntaxTree) : t.spelling.isOperator s = t.isOperator s := by
  cases t <;> rfl

@[simp] theorem children_spelling (t : SyntaxTree) : t.spelling.children = t.children.map spelling := by
  cases t with
  | leaf t => rfl
  | node k ts => simp [children]

mutual

theorem leaves_spelling : ∀ t : SyntaxTree, t.spelling.leaves = t.leaves.map Token.spelling
  | leaf _ => rfl
  | node _ children => leavesAll_spellings children

theorem leavesAll_spellings : ∀ ts : List SyntaxTree, leavesAll (spellings ts) = (leavesAll ts).map Token.spelling
  | [] => rfl
  | t :: ts => by
    rw [spellings, leavesAll, leavesAll, List.map_append, leaves_spelling t, leavesAll_spellings ts]

end

mutual

theorem spelling_mapLast {f : Token → Token} (hf : ∀ t, (f t).spelling = t.spelling) :
    ∀ t : SyntaxTree, (t.mapLast f).spelling = t.spelling
  | leaf t => congrArg leaf (hf t)
  | node k children => congrArg (node k) (spellings_mapLastAll hf children)

theorem spellings_mapLastAll {f : Token → Token} (hf : ∀ t, (f t).spelling = t.spelling) :
    ∀ ts : List SyntaxTree, spellings (mapLastAll f ts) = spellings ts
  | [] => rfl
  | [t] => congrArg (fun u => [u]) (spelling_mapLast hf t)
  | t :: u :: ts => congrArg (t.spelling :: ·) (spellings_mapLastAll hf (u :: ts))

end

@[simp] theorem spelling_bare (t : SyntaxTree) : t.bare.spelling = t.spelling := by
  unfold bare
  exact spelling_mapLast (by simp [Token.spelling]) t

@[simp] theorem spelling_trailing (blank : String) (t : SyntaxTree) : (t.trailing blank).spelling = t.spelling := by
  unfold trailing
  exact spelling_mapLast (by simp [Token.spelling]) t

theorem core_spelling (t : SyntaxTree) : t.spelling.core = t.core.spelling := by
  fun_induction core t with
  | case1 t => rfl
  | case2 a inner b ih => simpa [core] using ih
  | case3 k ts hne =>
    rw [spelling_node, core]
    intro a inner b hk hts
    obtain ⟨a', rest, rfl, -, hrest⟩ := List.map_eq_cons_iff.mp hts
    obtain ⟨inner', rest', rfl, -, hrest'⟩ := List.map_eq_cons_iff.mp hrest
    obtain ⟨b', rest'', rfl, -, hlast⟩ := List.map_eq_cons_iff.mp hrest'
    rw [List.map_eq_nil_iff.mp hlast] at hne
    exact hne a' inner' b' hk rfl

mutual

theorem assignable_spelling (starred : Bool) (t : SyntaxTree) :
    t.spelling.assignable starred = t.assignable starred := by
  cases t with
  | leaf t => rfl
  | node k ts =>
    rw [spelling_node]
    cases k
    case tuple => exact assignableAll_spelling starred ts
    case list => exact assignableAll_spelling starred ts
    case paren =>
      rcases ts with _ | ⟨a, _ | ⟨inner, _ | ⟨b, _ | ⟨c, ts⟩⟩⟩⟩
      case cons.cons.cons.nil => exact assignable_spelling starred inner
      all_goals rfl
    case starred =>
      rcases ts with _ | ⟨a, _ | ⟨inner, _ | ⟨b, ts⟩⟩⟩
      case cons.cons.nil => exact congrArg (starred && ·) (assignable_spelling starred inner)
      all_goals rfl
    all_goals rfl

theorem assignableAll_spelling (starred : Bool) (ts : List SyntaxTree) :
    assignableAll starred (ts.map spelling) = assignableAll starred ts := by
  cases ts with
  | nil => rfl
  | cons t ts =>
    cases t with
    | leaf t =>
      simp only [List.map_cons, spelling_leaf, assignableAll, assignableAll_spelling starred ts]
      rfl
    | node k cs =>
      have hnode := assignable_spelling starred (node k cs)
      rw [spelling_node] at hnode
      simp only [List.map_cons, spelling_node, assignableAll, hnode, assignableAll_spelling starred ts]

end

theorem isSingle_spelling (t : SyntaxTree) : t.spelling.isSingle = t.isSingle := by
  cases t with
  | leaf t => rfl
  | node k ts => simp [isSingle]

theorem hasDefault_spelling (t : SyntaxTree) : t.spelling.hasDefault = t.hasDefault := by
  simp [hasDefault, Function.comp_def]

end SyntaxTree

open SyntaxTree

theorem kind_spelling (s : Shape) (ts : List SyntaxTree) : s.kind (ts.map spelling) = s.kind ts := by
  simp [Shape.kind, Function.comp_def]

theorem legalParameters_spelling (ts : List SyntaxTree) : legalParameters (ts.map spelling) = legalParameters ts := by
  have hslash : ∀ o : Option SyntaxTree, (o.map spelling).any (is .slash) = o.any (is .slash) := by
    intro o
    cases o <;> simp
  simp [legalParameters, Function.comp_def, hasDefault_spelling, List.takeWhile_map, List.filter_map,
    List.dropWhile_map, hslash]

theorem holds_spelling (c : Check) (ts : List SyntaxTree) : c.holds (ts.map spelling) = c.holds ts := by
  cases c
  case parameters => exact legalParameters_spelling ts
  all_goals rcases ts with _ | ⟨t, _ | ⟨u, ts⟩⟩
  case target.cons.nil => exact assignable_spelling true t
  case single.cons.nil => rw [List.map_singleton, Check.holds, Check.holds, core_spelling, isSingle_spelling]
  case annotatable.cons.nil => exact isSingle_spelling t
  case deletable.cons.nil => exact assignable_spelling false t
  all_goals rfl

namespace Peg

variable {σ : Type}

/-- What was read, without white space and places. -/
def Read.spelling (r : Read) : Read :=
  r.map fun x => (x.1.map SyntaxTree.spelling, x.2.map Token.spelling)

/-- A reader that looks at spelling only. -/
def LooksAtSpelling (f : List Token → Read) : Prop :=
  ∀ ts, f (ts.map Token.spelling) = Read.spelling (f ts)

theorem runSeq_spelling {f : Peg σ → List Token → Read} (hf : ∀ p, LooksAtSpelling (f p)) (ps : List (Peg σ)) :
    LooksAtSpelling (runSeq f ps) := by
  induction ps with
  | nil => intro ts; rfl
  | cons p ps ih =>
    intro ts
    rw [runSeq, runSeq, hf p ts]
    cases f p ts with
    | none => rfl
    | some r =>
      obtain ⟨xs, rest⟩ := r
      simp only [Read.spelling, Option.map_some]
      rw [ih rest]
      cases runSeq f ps rest with
      | none => rfl
      | some r => simp [Read.spelling]

theorem runAlt_spelling {f : Peg σ → List Token → Read} (hf : ∀ p, LooksAtSpelling (f p)) (ps : List (Peg σ)) :
    LooksAtSpelling (runAlt f ps) := by
  induction ps with
  | nil => intro ts; rfl
  | cons p ps ih =>
    intro ts
    rw [runAlt, runAlt, hf p ts]
    cases f p ts with
    | none => exact ih ts
    | some r => rfl

theorem runMany_spelling {f : List Token → Read} (hf : LooksAtSpelling f) (n : Nat) (ts : List Token) :
    runMany f n (ts.map Token.spelling) =
      ((runMany f n ts).1.map SyntaxTree.spelling, (runMany f n ts).2.map Token.spelling) := by
  induction n generalizing ts with
  | zero => rfl
  | succ n ih =>
    rw [runMany, runMany, hf ts]
    cases f ts with
    | none => rfl
    | some r =>
      obtain ⟨xs, rest⟩ := r
      simp only [Read.spelling, Option.map_some, List.length_map]
      split
      · simp [ih rest]
      · rfl

theorem runStep_spelling {f : Peg σ → List Token → Read} (hf : ∀ p, LooksAtSpelling (f p))
    (steps : List (Kind × Peg σ)) (ts : List Token) :
    runStep f steps (ts.map Token.spelling) =
      (runStep f steps ts).map fun r => (r.1, r.2.1.map SyntaxTree.spelling, r.2.2.map Token.spelling) := by
  induction steps with
  | nil => rfl
  | cons s steps ih =>
    obtain ⟨k, p⟩ := s
    rw [runStep, runStep, hf p ts]
    cases f p ts with
    | none => exact ih
    | some r => rfl

theorem runExtend_spelling {f : Peg σ → List Token → Read} (hf : ∀ p, LooksAtSpelling (f p))
    (steps : List (Kind × Peg σ)) (n : Nat) (xs : List SyntaxTree) (ts : List Token) :
    runExtend f steps n (xs.map SyntaxTree.spelling) (ts.map Token.spelling) =
      ((runExtend f steps n xs ts).1.map SyntaxTree.spelling, (runExtend f steps n xs ts).2.map Token.spelling) := by
  induction n generalizing xs ts with
  | zero => rfl
  | succ n ih =>
    rw [runExtend, runExtend, runStep_spelling hf]
    cases runStep f steps ts with
    | none => rfl
    | some r =>
      obtain ⟨k, ys, rest⟩ := r
      have hnext := ih [.node k (xs ++ ys)] rest
      simpa using hnext

theorem run_spelling (rules : σ → Peg σ) (n : Nat) (p : Peg σ) : LooksAtSpelling (run rules n p) := by
  induction n generalizing p with
  | zero => intro ts; rfl
  | succ n ih =>
    intro ts
    unfold run
    cases p with
    | tok m =>
      cases ts with
      | nil => rfl
      | cons t ts =>
        have haccepts : m.accepts t.spelling = m.accepts t := by cases m <;> rfl
        simp only [List.map_cons, haccepts]
        split <;> rfl
    | sym s => exact ih _ ts
    | seq ps => exact runSeq_spelling ih ps ts
    | alt ps => exact runAlt_spelling ih ps ts
    | many p =>
      simp only [List.length_map]
      exact congrArg some (runMany_spelling (ih p) _ ts)
    | ahead p =>
      simp only [ih p ts]
      cases run rules n p ts <;> rfl
    | never p =>
      simp only [ih p ts]
      cases run rules n p ts <;> rfl
    | stop => cases ts <;> rfl
    | node k p =>
      simp only [ih p ts]
      cases run rules n p ts with
      | none => rfl
      | some r => simp [Read.spelling]
    | build s p =>
      simp only [ih p ts]
      cases run rules n p ts with
      | none => rfl
      | some r => simp [Read.spelling, kind_spelling]
    | only c p =>
      simp only [ih p ts]
      cases run rules n p ts with
      | none => rfl
      | some r =>
        simp only [Read.spelling, Option.map_some, Option.filter_some, holds_spelling]
        split <;> rfl
    | extend p steps =>
      simp only [ih p ts, List.length_map]
      cases run rules n p ts with
      | none => rfl
      | some r => exact congrArg some (runExtend_spelling ih steps _ r.1 r.2)

end Peg

namespace Grammar

/-- Tokens that are spelled alike read alike. -/
theorem read_spelling (p : E) (ts : List Token) :
    read p (ts.map Token.spelling) = Peg.Read.spelling (read p ts) := by
  unfold read
  rw [List.length_map]
  exact Peg.run_spelling rules _ p ts

end Grammar

end Conformance.Source
