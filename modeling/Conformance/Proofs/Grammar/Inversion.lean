import Conformance.Proofs.Grammar.Levels
import Conformance.Proofs.Grammar.Spelling

/-!
# From trees back to how they were read

What was read tells how it was read: an expression that no operator made was read as a primary
(`read_primary_of_namedExpression`), a group in parentheses between them (`read_parens_of_primary`), and a call by
the last step of a primary (`read_call`).
-/

namespace Conformance.Source

open SyntaxTree

namespace Peg

variable {σ : Type}

/-! ## How many trees are read -/

section
variable (table : σ → Option Nat)

mutual

/-- How many trees an expression reads, if that is fixed, given the same of the symbols. -/
def trees : Peg σ → Option Nat
  | tok _ => some 1
  | sym s => table s
  | seq ps => treesSeq ps
  | alt ps => treesAlt ps
  | many _ => none
  | ahead _ => some 0
  | never _ => some 0
  | stop => some 0
  | node _ _ => some 1
  | build _ _ => some 1
  | only _ p => p.trees
  | extend p _ => if p.trees = some 1 then some 1 else none

def treesSeq : List (Peg σ) → Option Nat
  | [] => some 0
  | p :: ps => p.trees.bind fun k => (treesSeq ps).map (k + ·)

def treesAlt : List (Peg σ) → Option Nat
  | [] => none
  | [p] => p.trees
  | p :: q :: ps => if p.trees = treesAlt (q :: ps) then p.trees else none

end

variable {table}

theorem trees_of_treesAlt {p : Peg σ} {ps : List (Peg σ)} {k : Nat} (h : treesAlt table ps = some k) (hp : p ∈ ps) :
    p.trees table = some k := by
  induction hp with
  | head ps =>
    cases ps with
    | nil => exact h
    | cons q ps =>
      rw [treesAlt] at h
      split at h
      · exact h
      · cases h
  | @tail q ps hp ih =>
    cases ps with
    | nil => cases hp
    | cons r ps =>
      rw [treesAlt] at h
      split at h
      · next heq => exact ih (heq.symm.trans h)
      · cases h

/-- An expression gives as many trees as it says. -/
theorem Derives.length_eq {rules : σ → Peg σ} (hrules : ∀ s k, table s = some k → (rules s).trees table = some k)
    {p : Peg σ} {ts rest : List Token} {xs : List SyntaxTree} {k : Nat} (h : Derives rules p ts xs rest)
    (hp : p.trees table = some k) : xs.length = k := by
  induction h generalizing k with
  | tok | nil | ahead | never | stop | node | build =>
    cases hp
    rfl
  | sym _ ih => exact ih (hrules _ _ hp)
  | cons _ _ ih ih' =>
    obtain ⟨i, hfirst, hmap⟩ := Option.bind_eq_some_iff.mp hp
    obtain ⟨j, hmore, rfl⟩ := Option.map_eq_some_iff.mp hmap
    rw [List.length_append, ih hfirst, ih' hmore]
  | alt hmem _ ih => exact ih (trees_of_treesAlt hp hmem)
  | done | again => cases hp
  | only _ ih => exact ih hp
  | first _ ih =>
    rw [trees] at hp
    split at hp
    · next hone =>
      cases hp
      exact ih hone
    · cases hp
  | step =>
    rw [trees] at hp
    split at hp <;> cases hp
    rfl

end

end Peg

namespace Grammar

open Peg Nonterminal

/-- How many trees a symbol reads. -/
def treesOf : Nonterminal → Option Nat
  | comprehension | slices | callArguments | .arguments | lambdaParameters | parameters => none
  | sequencePattern | starPattern | pattern | closedPattern | mappingKey | withItem | line | caseLine => none
  | _ => some 1

theorem trees_rules (s : Nonterminal) (k : Nat) : treesOf s = some k → (rules s).trees treesOf = some k := by
  intro h
  cases s <;> first | exact h | cases h

/-- A symbol that reads one tree reads one tree. -/
theorem read_single {p : E} (hp : p.trees treesOf = some 1) {ts rest : List Token} {xs : List SyntaxTree}
    (h : read p ts = some (xs, rest)) : ∃ x, xs = [x] :=
  List.length_eq_one_iff.mp ((run_derives h).length_eq trees_rules hp)

/-! ## Back through what was read -/

section
variable {ts rest : List Token} {xs : List SyntaxTree}

theorem read_suffix {p : E} (h : read p ts = some (xs, rest)) : rest <:+ ts :=
  ⟨leavesAll xs, run_lossless h⟩

/-- The tokens of a single tree that was read. -/
theorem read_leaves {p : E} {x : SyntaxTree} (h : read p ts = some ([x], rest)) : x.leaves ++ rest = ts := by
  simpa [leavesAll] using run_lossless h

/-- Some steps end with one of them, which holds what came before it. -/
theorem extendAll_last {steps : List (Kind × E)} (hsteps : Consuming steps) {zs : List SyntaxTree}
    (h : extendAll steps xs ts = (zs, rest)) :
    (zs = xs ∧ rest = ts) ∨
      ∃ s ∈ steps, ∃ ws us ys, zs = [.node s.1 (ws ++ ys)] ∧ read s.2 us = some (ys, rest) ∧ us <:+ ts ∧
        (ws = xs ∨ ∃ k cs, ws = [.node k cs]) := by
  induction hlength : ts.length using Nat.strongRecOn generalizing xs ts with
  | ind n ih =>
    cases hstep : runStep read steps ts with
    | none =>
      rw [extendAll_stop hstep] at h
      cases h
      exact .inl ⟨rfl, rfl⟩
    | some r =>
      obtain ⟨k, ys, mid⟩ := r
      obtain ⟨p, hp, hread⟩ := runStep_eq_some hstep
      rw [extendAll_step hsteps hstep] at h
      have hlt := runStep_lt hsteps hstep
      rcases ih mid.length (by omega) h rfl with ⟨rfl, rfl⟩ | ⟨s', hs', ws, us, ys', hzs, hread', hus, hws⟩
      · exact .inr ⟨(k, p), hp, xs, ts, ys, rfl, hread, List.suffix_refl ts, .inl rfl⟩
      · refine .inr ⟨s', hs', ws, us, ys', hzs, hread', hus.trans (read_suffix hread), .inr ?_⟩
        rcases hws with rfl | hw
        · exact ⟨_, _, rfl⟩
        · exact hw

/-- The kinds of atoms other than groups in parentheses. -/
def atomKinds : List Kind := [.strings, .template, .list, .listComp, .dict, .set, .dictComp, .setComp]

theorem read_strings_cases (h : read (sym strings) ts = some (xs, rest)) :
    (∃ t, xs = [.leaf t]) ∨ ∃ k cs, xs = [.node k cs] ∧ k ∈ atomKinds := by
  obtain ⟨ys, mid, hfirst, heq⟩ := took_rule h
  rcases extendAll_kind (by decide) heq with ⟨rfl, -⟩ | ⟨s, hs, cs, hnode⟩
  · rcases hfirst with ⟨t, -, -, hxs⟩ | htemplate
    · exact .inl ⟨t, hxs⟩
    · obtain ⟨cs, hxs, -⟩ := took_rule htemplate
      exact .inr ⟨.template, cs, hxs, by decide⟩
  · rw [List.mem_singleton] at hs
    subst hs
    exact .inr ⟨.strings, cs, hnode, by decide⟩

/-- An atom is a token, a group in parentheses, or one of the other kinds. -/
theorem read_atom_cases (h : read (sym atom) ts = some (xs, rest)) :
    (∃ t, xs = [.leaf t]) ∨ (∃ k cs, xs = [.node k cs] ∧ k ∈ atomKinds) ∨ read (sym parens) ts = some (xs, rest) := by
  rcases took_rule h with ⟨t, -, -, hxs⟩ | ⟨t, -, -, hxs⟩ | ⟨t, -, -, hxs⟩ | ⟨t, -, -, hxs⟩ | hstrings | ⟨t, -, -, hxs⟩ |
    hparens | hbrackets | hbraces | ⟨t, -, -, hxs⟩
  case inr.inr.inr.inr.inl => exact (read_strings_cases hstrings).imp_right .inl
  case inr.inr.inr.inr.inr.inr.inl => exact .inr (.inr hparens)
  case inr.inr.inr.inr.inr.inr.inr.inl =>
    obtain ⟨cs, hxs, -⟩ := took_rule hbrackets
    refine .inr (.inl ⟨_, cs, hxs, ?_⟩)
    simp only [Shape.kind]
    split <;> decide
  case inr.inr.inr.inr.inr.inr.inr.inr.inl =>
    obtain ⟨cs, hxs, -⟩ := took_rule hbraces
    refine .inr (.inl ⟨_, cs, hxs, ?_⟩)
    simp only [Shape.kind]
    split <;> split <;> decide
  all_goals exact .inl ⟨t, hxs⟩

/-! ## Down -/

/-- The kinds of expressions that operators make. -/
def operatorKinds : List Kind :=
  [.walrus, .lambda, .conditional, .boolean, .unary, .comparison, .binary, .awaiting]

/-- An expression that no operator made, or that starts with a parenthesis of its own. -/
def IsPrimary (e : SyntaxTree) : Prop :=
  (∀ k ∈ operatorKinds, e.is k = false) ∨ e.children.head?.any (isOperator "(") = true

theorem isPrimary_of_kind {k : Kind} {cs : List SyntaxTree} (hk : k ∉ operatorKinds) : IsPrimary (.node k cs) := by
  refine .inl fun k' hk' => ?_
  rw [SyntaxTree.is, beq_eq_false_iff_ne]
  rintro rfl
  exact hk hk'

/-- What an operator makes does not start with a parenthesis. -/
theorem IsPrimary.not_operator {k : Kind} {c : SyntaxTree} {cs : List SyntaxTree} (he : IsPrimary (.node k (c :: cs)))
    (hk : k ∈ operatorKinds) (hc : c.isOperator "(" = false) : False := by
  rcases he with hkinds | hparen
  · have := hkinds k hk
    simp [SyntaxTree.is] at this
  · rw [SyntaxTree.children, List.head?_cons, Option.any_some, hc] at hparen
    cases hparen

theorem IsPrimary.not_word {k : Kind} {w : String} {t : Token} {cs : List SyntaxTree}
    (he : IsPrimary (.node k (.leaf t :: cs))) (hk : k ∈ operatorKinds) (ht : (Match.word w).accepts t = true)
    (hw : w ≠ "(") : False := by
  simp only [Match.accepts, Bool.and_eq_true, beq_iff_eq] at ht
  exact he.not_operator hk (by simp [isOperator, ht.2, hw])

/-- A single token that is an expression is no parenthesis. -/
theorem not_paren_of_read {s : Nonterminal} (hs : nested false s = true) {x : SyntaxTree}
    (hproper : ∀ t ∈ ts, t.Proper) (h : read (sym s) ts = some ([x], rest)) : x.isOperator "(" = false := by
  cases x with
  | node k cs => rfl
  | leaf t =>
    obtain ⟨us, hus, hbalanced⟩ := read_balanced false (p := sym s) hs hproper h
    obtain rfl : us = [t] := List.append_cancel_right (hus.symm.trans (read_leaves h).symm)
    rw [Bool.eq_false_iff]
    intro hop
    simp only [isOperator, Bool.and_eq_true, beq_iff_eq] at hop
    obtain ⟨hkind, htext⟩ := hop
    have htoken : nestToken false [] t = some [] := by simpa [Balanced, walk_cons] using hbalanced
    rw [nestToken_word (nestToken_proper htoken) (by simp [Token.nests, hkind]) (by simp), htext] at htoken
    cases htoken

section
variable {operand : Nonterminal} {steps : List (Kind × E)} {e : SyntaxTree}

/-- What steps make of an operand starts with no parenthesis of its own. -/
theorem extendAll_isPrimary {x : SyntaxTree} {mid : List Token} (hsteps : Consuming steps)
    (hkinds : ∀ s ∈ steps, s.1 ∈ operatorKinds) (he : IsPrimary e) (hx : x.isOperator "(" = false)
    (h : extendAll steps [x] mid = ([e], rest)) : x = e ∧ mid = rest := by
  rcases extendAll_last hsteps h with ⟨heq, rfl⟩ | ⟨s, hs, ws, us, ys, hnode, -, -, hws⟩
  · exact ⟨(List.cons.inj heq).1.symm, rfl⟩
  · obtain ⟨rfl, -⟩ := List.cons.inj hnode
    rcases hws with rfl | ⟨k, cs, rfl⟩
    · exact (he.not_operator (hkinds s hs) hx).elim
    · exact (he.not_operator (hkinds s hs) rfl).elim

theorem descend (h : Took (extend (sym operand) steps) ts [e] rest) (hproper : ∀ t ∈ ts, t.Proper) (he : IsPrimary e)
    (hsteps : Consuming steps) (hkinds : ∀ s ∈ steps, s.1 ∈ operatorKinds) (hone : treesOf operand = some 1)
    (hnested : nested false operand = true) : read (sym operand) ts = some ([e], rest) := by
  obtain ⟨ys, mid, hread, heq⟩ := h
  obtain ⟨y, rfl⟩ := read_single (p := sym operand) hone hread
  obtain ⟨rfl, rfl⟩ := extendAll_isPrimary hsteps hkinds he (not_paren_of_read hnested hproper hread) heq
  exact hread

theorem read_expression_of_namedExpression (he : IsPrimary e)
    (h : read (sym namedExpression) ts = some ([e], rest)) : read (sym expression) ts = some ([e], rest) := by
  rcases took_rule h with ⟨_, _, _, heq, -, ⟨rfl, -, -⟩, cs, rfl, _, _, _, rfl, -, ⟨n, -, hname, rfl⟩, -⟩ |
    ⟨ys, mid, _, heq, -, hread, rfl, rfl⟩
  · cases heq
    simp only [Match.accepts, Bool.and_eq_true, beq_iff_eq] at hname
    exact (he.not_operator (by decide) (by simp [isOperator, hname.1])).elim
  · rw [List.append_nil] at heq
    exact heq ▸ hread

theorem read_disjunction_of_expression (hproper : ∀ t ∈ ts, t.Proper) (he : IsPrimary e)
    (h : read (sym expression) ts = some ([e], rest)) : read (sym disjunction) ts = some ([e], rest) := by
  rcases took_rule h with hlambda | hsteps
  · obtain ⟨_, heq, _, _, _, rfl, -, ⟨t, -, ht, rfl⟩, -⟩ := took_rule hlambda
    cases heq
    exact (he.not_word (by decide) ht (by decide)).elim
  · exact descend hsteps hproper he (by decide) (by decide) rfl rfl

theorem read_comparison_of_inversion (he : IsPrimary e) (h : read (sym inversion) ts = some ([e], rest)) :
    read (sym comparison) ts = some ([e], rest) := by
  rcases took_rule h with ⟨_, heq, _, _, _, rfl, -, ⟨t, -, ht, rfl⟩, -⟩ | hread
  · cases heq
    exact (he.not_word (by decide) ht (by decide)).elim
  · exact hread

theorem read_power_of_factor (he : IsPrimary e) (h : read (sym factor) ts = some ([e], rest)) :
    read (sym power) ts = some ([e], rest) := by
  rcases took_rule h with ⟨_, heq, _, _, _, rfl, -, ⟨t, -, ht, rfl⟩ | ⟨t, -, ht, rfl⟩ | ⟨t, -, ht, rfl⟩, -⟩ | hread
  case inr => exact hread
  all_goals
    cases heq
    exact (he.not_word (by decide) ht (by decide)).elim

theorem read_primary_of_awaited (he : IsPrimary e) (h : read (sym awaited) ts = some ([e], rest)) :
    read (sym primary) ts = some ([e], rest) := by
  rcases took_rule h with ⟨_, heq, _, _, _, rfl, -, ⟨t, -, ht, rfl⟩, -⟩ | hread
  · cases heq
    exact (he.not_word (by decide) ht (by decide)).elim
  · exact hread

/-- An expression that no operator made is read as a primary. -/
theorem read_primary_of_namedExpression (hproper : ∀ t ∈ ts, t.Proper) (he : IsPrimary e)
    (h : read (sym namedExpression) ts = some ([e], rest)) : read (sym primary) ts = some ([e], rest) := by
  have hexpression := read_expression_of_namedExpression he h
  have hdisjunction := read_disjunction_of_expression hproper he hexpression
  have hconjunction := descend (took_rule hdisjunction) hproper he (by decide) (by decide) rfl rfl
  have hinversion := descend (took_rule hconjunction) hproper he (by decide) (by decide) rfl rfl
  have hcomparison := read_comparison_of_inversion he hinversion
  have hbitOr := descend (took_rule hcomparison) hproper he (by decide) (by decide) rfl rfl
  have hbitXor := descend (took_rule hbitOr) hproper he (by decide) (by decide) rfl rfl
  have hbitAnd := descend (took_rule hbitXor) hproper he (by decide) (by decide) rfl rfl
  have hshift := descend (took_rule hbitAnd) hproper he (by decide) (by decide) rfl rfl
  have hsum := descend (took_rule hshift) hproper he (by decide) (by decide) rfl rfl
  have hterm := descend (took_rule hsum) hproper he (by decide) (by decide) rfl rfl
  have hfactor := descend (took_rule hterm) hproper he (by decide) (by decide) rfl rfl
  have hpower := read_power_of_factor he hfactor
  have hawaited := descend (took_rule hpower) hproper he (by decide) (by decide) rfl rfl
  exact read_primary_of_awaited he hawaited

end

/-! ## Parentheses -/

/-- What stands inside parentheses. -/
def parensInside : E :=
  alt [sym yielding,
    seq [sym namedExpression, alt [sym comprehension, seq [word ",", moreStarNamed], nothing]],
    seq [starred, word ",", moreStarNamed],
    nothing]

theorem read_parens_eq_some (h : read (sym parens) ts = some (xs, rest)) :
    ∃ opening closing us cs, ts = opening :: us ∧ (Match.word "(").accepts opening = true ∧
      (Match.word ")").accepts closing = true ∧ closing :: rest <:+ us ∧ Took parensInside us cs (closing :: rest) ∧
      xs = [.node (Shape.kind .parens (.leaf opening :: (cs ++ [.leaf closing])))
        (.leaf opening :: (cs ++ [.leaf closing]))] := by
  obtain ⟨_, rfl, _, us, _, rfl, -, ⟨opening, rfl, hopening, rfl⟩, cs, _, _, rfl, hus, hinside, closing, rfl, hclosing,
    rfl⟩ := took_rule h
  exact ⟨opening, closing, us, cs, rfl, hopening, hclosing, read_suffix hus, hinside, rfl⟩

/-- A group in parentheses was read between them. -/
theorem read_parens_of_primary {k : Kind} {cs : List SyntaxTree} (hk : k ∈ [Kind.paren, Kind.tuple])
    (h : read (sym primary) ts = some ([.node k cs], rest)) : read (sym parens) ts = some ([.node k cs], rest) := by
  rw [read_primary] at h
  obtain ⟨⟨ys, mid⟩, hatom, heq⟩ := Option.map_eq_some_iff.mp h
  rcases extendAll_kind (by decide) heq with ⟨hys, hmid⟩ | ⟨s, hs, cs', hnode⟩
  · simp only at hys hmid
    rw [← hys, ← hmid] at hatom
    rcases read_atom_cases hatom with ⟨t, ht⟩ | ⟨k', cs', hnode, hk'⟩ | hparens
    · cases ht
    · cases hnode
      simp only [List.mem_cons, List.not_mem_nil, or_false] at hk
      rcases hk with rfl | rfl <;> exact absurd hk' (by decide)
    · exact hparens
  · cases hnode
    simp only [primarySteps, List.mem_cons, List.not_mem_nil, or_false] at hs hk
    rcases hs with rfl | rfl | rfl <;> rcases hk with hk | hk <;> cases hk

/-- A call or a tuple in any number of parentheses was read as such. -/
theorem read_core {e : SyntaxTree} {k : Kind} {cs : List SyntaxTree} (hk : k ∈ [Kind.call, Kind.tuple])
    (hcore : e.core = .node k cs) (hproper : ∀ t ∈ ts, t.Proper)
    (h : read (sym namedExpression) ts = some ([e], rest)) :
    ∃ us rest', us <:+ ts ∧ read (sym primary) us = some ([.node k cs], rest') := by
  have hkinds : k ≠ .yielding ∧ k ≠ .starred ∧ k ∉ operatorKinds := by
    simp only [List.mem_cons, List.not_mem_nil, or_false] at hk
    rcases hk with rfl | rfl <;> decide
  fun_induction core e generalizing ts rest with
  | case1 t => cases hcore
  | case2 a inner b ih =>
    have hprimary := read_primary_of_namedExpression hproper (isPrimary_of_kind (by decide)) h
    obtain ⟨opening, closing, us, ds, rfl, -, -, -, hinside, heq⟩ :=
      read_parens_eq_some (read_parens_of_primary (by decide) hprimary)
    have hchildren : [a, inner, b] = leaf opening :: (ds ++ [leaf closing]) :=
      (SyntaxTree.node.inj (List.cons.inj heq).1).2
    have hds : ds = [inner] := by
      have hlength := congrArg List.length hchildren
      simp only [List.length_cons, List.length_append, List.length_nil] at hlength
      obtain ⟨d, rfl⟩ := List.length_eq_one_iff.mp (by omega : ds.length = 1)
      cases hchildren
      rfl
    subst hds
    rcases hinside with hyield | ⟨es, mid, zs, heq, -, hnamed, hcomp | ⟨_, _, _, rfl, -, ⟨comma, -, -, rfl⟩, -⟩ |
      ⟨rfl, rfl⟩⟩ | ⟨_, _, _, heq, -, ⟨ys, rfl, -⟩, -⟩ | ⟨heq, -⟩
    · obtain ⟨ys, heq, -⟩ := took_rule hyield
      cases heq
      exact absurd (SyntaxTree.node.inj hcore).1.symm hkinds.1
    · obtain ⟨_, _, _, rfl, -, ⟨parts, rfl, -⟩, -⟩ := took_rule hcomp
      obtain ⟨e, rfl⟩ := read_single rfl hnamed
      cases heq
    · obtain ⟨e, rfl⟩ := read_single rfl hnamed
      cases heq
    · rw [List.append_nil] at heq
      subst heq
      obtain ⟨us', rest', hus', hread⟩ := ih hcore (fun t ht => hproper t (List.mem_cons_of_mem _ ht)) hnamed
      exact ⟨us', rest', hus'.trans (List.suffix_cons _ _), hread⟩
    · cases heq
      exact absurd (SyntaxTree.node.inj hcore).1.symm hkinds.2.1
    · cases heq
  | case3 k' cs' hne =>
    cases hcore
    exact ⟨ts, rest, List.suffix_refl ts, read_primary_of_namedExpression hproper (isPrimary_of_kind hkinds.2.2) h⟩

/-! ## Calls -/

/-- The arguments of a call were read as such. -/
theorem read_call {f : SyntaxTree} {cs : List SyntaxTree} (h : read (sym primary) ts = some ([.node .call (f :: cs)], rest)) :
    ∃ opening closing as us, us <:+ ts ∧ cs = .leaf opening :: (as ++ [.leaf closing]) ∧
      read (sym callArguments) us = some (as, closing :: rest) := by
  rw [read_primary] at h
  obtain ⟨⟨ys, mid⟩, hatom, heq⟩ := Option.map_eq_some_iff.mp h
  have hys : ∃ y, ys = [y] := read_single rfl hatom
  rcases extendAll_last (by decide) heq with ⟨hys', -⟩ | ⟨s, hs, ws, us, zs, hnode, hread, hus, hws⟩
  · simp only at hys'
    rw [← hys'] at hatom
    rcases read_atom_cases hatom with ⟨t, ht⟩ | ⟨k, cs', hnode, hk⟩ | hparens
    · cases ht
    · cases hnode
      exact absurd hk (by decide)
    · obtain ⟨opening, closing, us, ds, -, -, -, -, -, heq⟩ := read_parens_eq_some hparens
      have hkind := (SyntaxTree.node.inj (List.cons.inj heq).1).1
      simp only [Shape.kind] at hkind
      split at hkind
      · cases hkind
      · split at hkind <;> cases hkind
  · obtain ⟨w, rfl⟩ : ∃ w, ws = [w] := by
      rcases hws with rfl | ⟨k, cs', rfl⟩
      · exact hys
      · exact ⟨_, rfl⟩
    simp only [primarySteps, List.mem_cons, List.not_mem_nil, or_false] at hs
    rcases hs with rfl | rfl | rfl
    · cases hnode
    · cases hnode
      obtain ⟨_, us', _, rfl, -, ⟨opening, rfl, -, rfl⟩, as, _, _, rfl, -, has, closing, rfl, -, rfl⟩ :=
        took_of_read (by decide) hread
      refine ⟨opening, closing, as, us', ?_, rfl, has⟩
      exact ((List.suffix_cons _ _).trans hus).trans (read_suffix hatom)
    · cases hnode

end

end Grammar

end Conformance.Source
