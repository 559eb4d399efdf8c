import Conformance.Proofs.Grammar.Origin
import Conformance.Source.Generated

/-!
# Generated lines are read back

A line that is put together from names, calls and excerpts is read as the tree it was made as.  `Grows` says that an
expression is read as a primary that may go on; names are, and so are attributes and calls of what grows.  A line that
is a call, an annotated assignment of a call, or the head of a function is then read as a whole.
-/

namespace Conformance.Source

open SyntaxTree

namespace Grammar

open Peg Nonterminal

/-! ## In front of a dot -/

theorem EndsArgument.quiet {ts : List Token} (h : EndsArgument ts) {ms : List Match}
    (hcomma : (ms.all fun m => !m.takes ",") = true) (hclose : (ms.all fun m => !m.takes ")") = true) :
    ¬StartsWith ms ts := by
  rcases h with h | h
  · exact not_startsWith_of_starts h hcomma
  · exact not_startsWith_of_starts h hclose

/-- The symbols for atoms, which stop in front of a dot. -/
def undotted : Nonterminal → Bool
  | atom | strings | template | field | parens | brackets | braces => true
  | _ => false

/-- An atom that is followed by the end of an argument, and then by a dot. -/
theorem dotBorder_sound {left : String} (hleft : left ∈ [",", ")"]) :
    Border.Sound takes inside rules ⟨left, ".", false, undotted⟩ := by
  intro s
  simp only [List.mem_cons, List.not_mem_nil, or_false] at hleft
  rcases hleft with rfl | rfl <;> cases s <;> decide

section
variable {us ts ts' : List Token}

theorem EndsArgument.border (h : EndsArgument ts) (hts' : Starts "." ts') (hus : Balanced false us) {p : E}
    (hsmall : Small p) (hcomma : p.clear takes inside ⟨",", ".", false, undotted⟩ = true)
    (hclose : p.clear takes inside ⟨")", ".", false, undotted⟩ = true) :
    Agree false ts ts' (read p (us ++ ts)) (read p (us ++ ts')) := by
  rcases h with hts | hts
  · exact read_border (dotBorder_sound (by decide)) hsmall hcomma hts hts' hus
  · exact read_border (dotBorder_sound (by decide)) hsmall hclose hts hts' hus


theorem balanced_tail {m : Match} {t : Token} (h : Balanced false (t :: us)) (hm : m.nest? false [] = some [])
    (haccepts : m.accepts t = true) : Balanced false us := by
  obtain ⟨next, htoken, hwalk⟩ := Option.bind_eq_some_iff.mp ((walk_cons ..).symm.trans h)
  rw [Match.nest?_accepts hm (nestToken_proper htoken) haccepts] at htoken
  cases htoken
  exact hwalk

/-- An attribute is read in front of a dot as in front of the end of an argument. -/
theorem EndsArgument.member (h : EndsArgument ts) (hts' : Starts "." ts') (hus : Balanced false us) (hne : us ≠ []) :
    Agree false ts ts' (read (seq [word ".", name]) (us ++ ts)) (read (seq [word ".", name]) (us ++ ts')) := by
  obtain ⟨t, us, rfl⟩ := List.exists_cons_of_ne_nil hne
  have hseq : ∀ rest, read (seq [word ".", name]) (t :: rest) =
      if (Match.word ".").accepts t then (read name rest).map fun r => (.leaf t :: r.1, r.2) else none := by
    intro rest
    rw [read_seq (by decide)]
    simp only [runSeq, word, read_tok]
    split
    · next hnone => simp_all
    · next ys mid hsome =>
      split at hsome
      · next haccepts =>
        cases hsome
        rw [if_pos haccepts]
        cases read name rest <;> simp
      · cases hsome
  rw [List.cons_append, List.cons_append, hseq, hseq]
  cases hpoint : (Match.word ".").accepts t with
  | false => exact .inl ⟨rfl, rfl⟩
  | true =>
    have hus := balanced_tail hus rfl hpoint
    rw [if_pos rfl, if_pos rfl]
    cases us with
    | nil =>
      have hleft : read name ts = none := read_eq_none rfl (h.quiet (by decide) (by decide))
      have hright : read name ts' = none := read_eq_none rfl (not_startsWith_of_starts hts' (by decide))
      exact .inl ⟨by rw [List.nil_append, hleft]; rfl, by rw [List.nil_append, hright]; rfl⟩
    | cons n us =>
      rw [List.cons_append, List.cons_append, name, read_tok, read_tok]
      cases hname : Match.name.accepts n with
      | false => exact .inl ⟨rfl, rfl⟩
      | true => exact .inr ⟨_, us, balanced_tail hus rfl hname, rfl, rfl⟩

/-- A step of a primary is taken in front of a dot as in front of the end of an argument. -/
theorem EndsArgument.step (h : EndsArgument ts) (hts' : Starts "." ts') (hus : Balanced false us) (hne : us ≠ []) :
    (runStep read primarySteps (us ++ ts) = none ∧ runStep read primarySteps (us ++ ts') = none) ∨
      ∃ k ys vs, Balanced false vs ∧ runStep read primarySteps (us ++ ts) = some (k, ys, vs ++ ts) ∧
        runStep read primarySteps (us ++ ts') = some (k, ys, vs ++ ts') := by
  simp only [primarySteps, runStep]
  rcases h.member hts' hus hne with ⟨h₁, h₂⟩ | ⟨ys, vs, hvs, h₁, h₂⟩ <;> rw [h₁, h₂]
  case inr => exact .inr ⟨_, ys, vs, hvs, rfl, rfl⟩
  have hcall := h.border hts' hus (p := seq [word "(", sym callArguments, word ")"]) (by decide) (by decide) (by decide)
  rcases hcall with ⟨h₁, h₂⟩ | ⟨ys, vs, hvs, h₁, h₂⟩ <;> rw [h₁, h₂]
  case inr => exact .inr ⟨_, ys, vs, hvs, rfl, rfl⟩
  have hitem := h.border hts' hus (p := seq [word "[", sym slices, word "]"]) (by decide) (by decide) (by decide)
  rcases hitem with ⟨h₁, h₂⟩ | ⟨ys, vs, hvs, h₁, h₂⟩ <;> rw [h₁, h₂]
  · exact .inl ⟨rfl, rfl⟩
  · exact .inr ⟨_, ys, vs, hvs, rfl, rfl⟩

/-- The steps of a primary that ends with an argument are taken in front of a dot, and more may follow. -/
theorem EndsArgument.extendAll (h : EndsArgument ts) (hts' : Starts "." ts') (hus : Balanced false us)
    {xs ys : List SyntaxTree} (hread : Grammar.extendAll primarySteps xs (us ++ ts) = (ys, ts)) :
    Grammar.extendAll primarySteps xs (us ++ ts') = Grammar.extendAll primarySteps ys ts' := by
  induction hlength : us.length using Nat.strongRecOn generalizing us xs with
  | ind n ih =>
    by_cases hne : us = []
    · subst hne
      rw [List.nil_append, extendAll_stop (runStep_primary_eq_none (h.quiet (by decide) (by decide)))] at hread
      cases hread
      rfl
    · rcases h.step hts' hus hne with ⟨hstop, -⟩ | ⟨k, zs, vs, hvs, h₁, h₂⟩
      · rw [extendAll_stop hstop] at hread
        exact absurd (List.append_left_eq_self.mp (Prod.mk.inj hread).2) hne
      · have hlt := runStep_lt (by decide) h₁
        rw [List.length_append, List.length_append] at hlt
        rw [extendAll_step (by decide) h₁] at hread
        rw [extendAll_step (by decide) h₂]
        exact ih vs.length (by omega) hvs hread rfl

/-- A primary that was read up to the end of an argument can be followed by a dot. -/
theorem Excerpt.read_dotted {e : SyntaxTree} (he : Excerpt e) (hprimary : IsPrimary e) (hts' : Starts "." ts') :
    read (sym primary) (e.leaves ++ ts') = some (Grammar.extendAll primarySteps [e] ts') := by
  obtain ⟨ts, hts, hproper, hread⟩ := he
  have hread := read_primary_of_namedExpression hproper hprimary hread
  obtain ⟨us, hus, hbalanced⟩ := read_balanced false (p := sym primary) rfl hproper hread
  obtain rfl := List.append_cancel_right hus
  rw [read_primary] at hread ⊢
  obtain ⟨⟨xs, mid⟩, hatom, hsteps⟩ := Option.map_eq_some_iff.mp hread
  rcases hts.border hts' hbalanced (p := sym atom) (by decide) rfl rfl with ⟨hnone, -⟩ | ⟨trees, vs, hvs, h₁, h₂⟩
  · rw [hnone] at hatom
    cases hatom
  · obtain ⟨rfl, rfl⟩ := Prod.mk.inj (Option.some.inj (h₁.symm.trans hatom))
    rw [h₂, Option.map_some, hts.extendAll hts' hvs hsteps]

end

/-! ## Primaries -/

/-- An expression that is read as a primary, after which more steps may follow. -/
def Grows (e : SyntaxTree) : Prop :=
  ∀ ts, read (sym primary) (e.leaves ++ ts) = some (extendAll primarySteps [e] ts)

/-- An expression that is read as a primary in front of a dot. -/
def TakesDot (e : SyntaxTree) : Prop :=
  ∀ ts, Starts "." ts → read (sym primary) (e.leaves ++ ts) = some (extendAll primarySteps [e] ts)

theorem Grows.takesDot {e : SyntaxTree} (h : Grows e) : TakesDot e := fun ts _ => h ts

theorem Grows.name {n : Token} (hn : Match.name.accepts n = true) : Grows (.leaf n) := by
  intro ts
  rw [leaves, List.singleton_append, read_primary, read_atom_of_name hn]
  rfl

theorem Grows.member {e : SyntaxTree} {point name : Token} (he : TakesDot e) (hkind : point.kind = .operator)
    (hpoint : point.text = ".") (hname : Match.name.accepts name = true) :
    Grows (.node .member [e, .leaf point, .leaf name]) := by
  intro ts
  have hleaves : (node .member [e, .leaf point, .leaf name]).leaves ++ ts = e.leaves ++ point :: name :: ts := by
    simp [leaves, leavesAll]
  have haccepts : (Match.word ".").accepts point = true := by rw [Match.accepts_eq_takes hkind hpoint]; rfl
  rw [hleaves, he _ ⟨point, name :: ts, rfl, hkind, hpoint⟩, extendAll_step (by decide) (runStep_member haccepts hname ts)]
  rfl

theorem Grows.call {e : SyntaxTree} {opening closing : Token} {as : List SyntaxTree} (he : Grows e)
    (hopen : (Match.word "(").accepts opening = true) (hkind : closing.kind = .operator) (hclose : closing.text = ")")
    (has : Positionals as) : Grows (.node .call (e :: .leaf opening :: (as ++ [.leaf closing]))) := by
  intro ts
  have hleaves : (node .call (e :: .leaf opening :: (as ++ [.leaf closing]))).leaves ++ ts =
      e.leaves ++ opening :: (leavesAll as ++ closing :: ts) := by
    simp [leaves, leavesAll, leavesAll_append]
  rw [hleaves, he, extendAll_step (by decide) (runStep_call hopen hkind hclose has ts)]
  rfl

/-- A primary that ends with the argument can stand as one. -/
theorem Fits.of_primary {e : SyntaxTree} (hproper : ∀ t ∈ e.leaves, t.Proper) (hne : e.leaves ≠ [])
    (h : ∀ {ts}, EndsArgument ts → read (sym primary) (e.leaves ++ ts) = some ([e], ts)) : Fits e := by
  have hhead : ∀ ts, ∀ t ∈ (e.leaves ++ ts).head?, t.Proper := by
    intro ts t ht
    obtain ⟨u, us, hcons⟩ := List.exists_cons_of_ne_nil hne
    rw [hcons] at ht
    cases ht
    exact hproper t (by simp [hcons])
  have hreads : ∀ {ts}, EndsArgument ts → read (sym namedExpression) (e.leaves ++ ts) = some ([e], ts) := fun hts =>
    read_namedExpression_of_primary (hhead _) (h hts) (hts.quiet (by decide) (by decide))
      (hts.quiet (by decide) (by decide))
  exact ⟨hproper, hreads, fun hts => read_keywordAhead_eq_none (hhead _) (hreads hts) hts⟩

theorem Grows.fits {e : SyntaxTree} (h : Grows e) (hproper : ∀ t ∈ e.leaves, t.Proper) (hne : e.leaves ≠ []) :
    Fits e := by
  refine Fits.of_primary hproper hne fun {ts} hts => ?_
  rw [h ts, extendAll_stop (runStep_primary_eq_none (hts.quiet (by decide) (by decide)))]

/-- A text in quotes can stand as an argument. -/
theorem Fits.string {t : Token} (ht : t.kind = .string) : Fits (.leaf t) := by
  have hproper : t.Proper := fun hname => nomatch ht.symm.trans hname
  refine Fits.of_primary (by simpa [leaves] using hproper) (by simp [leaves]) fun {ts} hts => ?_
  have hpart : read (alt [tok (.kind .string), sym template]) (t :: ts) = some ([.leaf t], ts) := by
    rw [read_alt (by decide), runAlt, read_tok]
    simp [Match.accepts, ht]
  have hstrings : read (sym strings) (t :: ts) = some ([.leaf t], ts) := by
    rw [read_sym]
    change read (extend (alt [tok (.kind .string), sym template]) _) (t :: ts) = _
    rw [read_extendAll (by decide), hpart]
    exact congrArg some (extendAll_stop (runStep_eq_none (by decide) (hts.quiet (by decide) (by decide))))
  have hfail : ∀ m, m ∈ [Match.name, .word "True", .word "False", .word "None"] → read (tok m) (t :: ts) = none := by
    intro m hm
    rw [read_tok]
    simp only [List.mem_cons, List.not_mem_nil, or_false] at hm
    rcases hm with rfl | rfl | rfl | rfl <;> simp [Match.accepts, ht]
  have hatom : read (sym atom) (t :: ts) = some ([.leaf t], ts) := by
    rw [read_sym]
    change read (alt (tok .name :: tok (.word "True") :: tok (.word "False") :: tok (.word "None") :: sym strings :: _))
      (t :: ts) = _
    rw [read_alt (by decide), runAlt, hfail _ (by simp), runAlt, hfail _ (by simp), runAlt, hfail _ (by simp), runAlt,
      hfail _ (by simp), runAlt, hstrings]
  rw [leaves, List.singleton_append, read_primary, hatom, Option.map_some,
    extendAll_stop (runStep_primary_eq_none (hts.quiet (by decide) (by decide)))]

/-! ## Parentheses -/

/-- What a primary is, if it is no single token. -/
theorem read_primary_kind {k : Kind} {cs : List SyntaxTree} {ts rest : List Token}
    (h : read (sym primary) ts = some ([.node k cs], rest)) :
    k ∈ [Kind.member, .call, .subscript] ++ atomKinds ++ [.generator, .tuple, .paren] := by
  rw [read_primary] at h
  obtain ⟨⟨ys, mid⟩, hatom, heq⟩ := Option.map_eq_some_iff.mp h
  rcases extendAll_kind (by decide) heq with ⟨hys, -⟩ | ⟨s, hs, cs', hnode⟩
  · simp only at hys
    subst hys
    rcases read_atom_cases hatom with ⟨t, hleaf⟩ | ⟨k', cs', hnode, hk'⟩ | hparens
    · cases hleaf
    · cases hnode
      exact List.mem_append_left _ (List.mem_append_right _ hk')
    · obtain ⟨opening, closing, us, ds, -, -, -, -, -, hnode⟩ := read_parens_eq_some hparens
      obtain ⟨rfl, -⟩ := SyntaxTree.node.inj (List.cons.inj hnode).1
      refine List.mem_append_right _ ?_
      unfold Shape.kind
      dsimp only
      split
      · decide
      · split <;> decide
  · cases hnode
    refine List.mem_append_left _ (List.mem_append_left _ ?_)
    simp only [primarySteps, List.mem_cons, List.not_mem_nil, or_false] at hs
    rcases hs with rfl | rfl | rfl <;> decide

/-- An expression is no comma and no part of a comprehension. -/
theorem Excerpt.not_punctuation {e : SyntaxTree} (he : Excerpt e) : e.isOperator "," = false ∧ e.is .compFor = false := by
  obtain ⟨ts, -, hproper, hread⟩ := he
  cases e with
  | leaf t =>
    refine ⟨?_, rfl⟩
    rw [Bool.eq_false_iff]
    intro hcomma
    have hcomma : t.kind = .operator ∧ t.text = "," := by simpa [isOperator] using hcomma
    have hfirst : StartsWith operandFirsts (t :: ts) := read_firsts (p := sym namedExpression) rfl hread
    exact not_startsWith_of_starts ⟨t, ts, rfl, hcomma⟩ (by decide) hfirst
  | node k cs =>
    refine ⟨rfl, ?_⟩
    rw [Bool.eq_false_iff]
    intro hcomp
    have hk : k = .compFor := (beq_iff_eq.mp hcomp).symm
    subst hk
    have hprimary := read_primary_of_namedExpression hproper (isPrimary_of_kind (by decide)) hread
    exact absurd (read_primary_kind hprimary) (by decide)

theorem read_atom_of_parens {ts : List Token} {r : List SyntaxTree × List Token} (hts : Starts "(" ts)
    (h : read (sym parens) ts = some r) : read (sym atom) ts = some r := by
  have hnone : ∀ p ∈ [name, word "True", word "False", word "None", sym strings, tok (.kind .number)],
      read p ts = none := by
    intro p hp
    simp only [List.mem_cons, List.not_mem_nil, or_false] at hp
    rcases hp with rfl | rfl | rfl | rfl | rfl | rfl <;>
      exact read_eq_none rfl (not_startsWith_of_starts hts (by decide))
  rw [read_sym]
  change read (alt (name :: word "True" :: word "False" :: word "None" :: sym strings :: tok (.kind .number) ::
    sym parens :: _)) ts = _
  rw [read_alt (by decide), runAlt, hnone _ (by simp), runAlt, hnone _ (by simp), runAlt, hnone _ (by simp), runAlt,
    hnone _ (by simp), runAlt, hnone _ (by simp), runAlt, hnone _ (by simp), runAlt, h]

/-- An expression in parentheses. -/
theorem Grows.paren {e : SyntaxTree} {opening closing : Token} (hopening : opening.kind = .operator)
    (hopen : opening.text = "(") (hkind : closing.kind = .operator) (hclose : closing.text = ")") (he : Fits e) (hcomma : e.isOperator "," = false)
    (hcomp : e.is .compFor = false) : Grows (.node .paren [.leaf opening, e, .leaf closing]) := by
  intro ts
  have hends : EndsArgument (closing :: ts) := .inr ⟨closing, ts, rfl, hkind, hclose⟩
  have hread := he.reads hends
  have hproper : ∀ t ∈ (e.leaves ++ closing :: ts).head?, t.Proper := by
    intro t ht
    rw [List.head?_append] at ht
    cases hhead : e.leaves.head? with
    | none =>
      rw [hhead] at ht
      cases ht
      exact fun hname => nomatch hkind.symm.trans hname
    | some u =>
      rw [hhead] at ht
      cases ht
      exact he.proper _ (List.mem_of_mem_head? hhead)
  have hyield : read (sym yielding) (e.leaves ++ closing :: ts) = none := by
    have hfirst : StartsWith operandFirsts (e.leaves ++ closing :: ts) := read_firsts (p := sym namedExpression) rfl hread
    exact read_eq_none rfl (not_startsWith_of_apart hproper hfirst (by decide))
  have hnone : ∀ p : E, p.consumes takes = true → ((p.firsts takes firstOf).all fun m => !m.takes ",") = true →
      ((p.firsts takes firstOf).all fun m => !m.takes ")") = true → read p (closing :: ts) = none :=
    fun p hp hcomma hclose => read_none_of_endsArgument hends hp hcomma hclose
  have hafter : read (alt [sym comprehension, seq [word ",", moreStarNamed], nothing]) (closing :: ts) =
      some ([], closing :: ts) := by
    have hcomprehension := hnone (sym comprehension) (by decide) (by decide) (by decide)
    have hmore : read (seq [word ",", moreStarNamed]) (closing :: ts) = none :=
      read_eq_none (by decide) (not_startsWith_of_starts ⟨closing, ts, rfl, hkind, hclose⟩ (by decide))
    rw [read_alt (by decide), runAlt, hcomprehension, runAlt, hmore, runAlt, nothing, read_seq (by decide)]
    rfl
  have hinside : read parensInside (e.leaves ++ closing :: ts) = some ([e], closing :: ts) := by
    rw [parensInside, read_alt (by decide), runAlt, hyield, runAlt, read_seq (by decide)]
    simp [runSeq, hread, hafter]
  have hfirst : (Match.word "(").accepts opening = true := by rw [Match.accepts_eq_takes hopening hopen]; rfl
  have hlast : (Match.word ")").accepts closing = true := by rw [Match.accepts_eq_takes hkind hclose]; rfl
  have hparens : read (sym parens) (opening :: (e.leaves ++ closing :: ts)) =
      some ([.node .paren [.leaf opening, e, .leaf closing]], ts) := by
    have hseq : read (seq [word "(", parensInside, word ")"]) (opening :: (e.leaves ++ closing :: ts)) =
        some ([.leaf opening, e, .leaf closing], ts) := by
      rw [read_seq (by decide)]
      simp [runSeq, word, read_tok, hfirst, hinside, hlast]
    have hshape : Shape.kind .parens [.leaf opening, e, .leaf closing] = .paren := by
      have hfirstComma : (leaf opening).isOperator "," = false := by simp [isOperator, hopen]
      have hlastComma : (leaf closing).isOperator "," = false := by simp [isOperator, hclose]
      have hleaf : ∀ t, (leaf t).is .compFor = false := fun _ => rfl
      simp [Shape.kind, hcomma, hcomp, hfirstComma, hlastComma, hleaf]
    rw [read_sym]
    change read (build .parens (seq [word "(", parensInside, word ")"])) _ = _
    rw [read_build _ (by decide), hseq, Option.map_some, hshape]
  have hleaves : (node .paren [.leaf opening, e, .leaf closing]).leaves ++ ts = opening :: (e.leaves ++ closing :: ts) := by
    simp [leaves, leavesAll]
  rw [hleaves, read_primary, read_atom_of_parens ⟨opening, _, rfl, hopening, hopen⟩ hparens]
  rfl

/-! ## Made of excerpts -/

theorem Starts.spelling {s : String} {ts : List Token} (h : Starts s ts) : Starts s (ts.map Token.spelling) := by
  obtain ⟨t, rest, rfl, hkind, htext⟩ := h
  exact ⟨t.spelling, rest.map Token.spelling, rfl, hkind, htext⟩

/-- White space does not matter to what is read in front of other tokens. -/
theorem read_before_spelling {n : Nonterminal} {e : SyntaxTree} {ts : List Token}
    (hproper : ∀ t ∈ e.leaves ++ ts, t.Proper) (h : read (sym n) (e.leaves ++ ts) = some ([e], ts)) :
    (∀ t ∈ e.spelling.leaves ++ ts.map Token.spelling, t.Proper) ∧
      read (sym n) (e.spelling.leaves ++ ts.map Token.spelling) = some ([e.spelling], ts.map Token.spelling) := by
  rw [leaves_spelling, ← List.map_append, read_spelling, h]
  exact ⟨List.forall_mem_map.mpr hproper, rfl⟩

theorem Excerpt.spelling {e : SyntaxTree} (h : Excerpt e) : Excerpt e.spelling := by
  obtain ⟨ts, hts, hproper, hread⟩ := h
  exact ⟨_, hts.imp Starts.spelling Starts.spelling, read_before_spelling hproper hread⟩

/-- What an excerpt is guarded as can be followed by a dot. -/
theorem Excerpt.takesDot_guarded {e : SyntaxTree} (h : Excerpt e) : TakesDot e.guarded.spelling := by
  have hspelled := h.spelling
  have hparen : TakesDot (node .paren [ofOperator "(", e.bare, ofOperator ")"]).spelling := by
    obtain ⟨hcomma, hcomp⟩ := hspelled.not_punctuation
    rw [spelling_node]
    simp only [List.map_cons, List.map_nil, spelling_bare]
    exact (Grows.paren rfl rfl rfl rfl hspelled.fits hcomma hcomp).takesDot
  have hself : IsPrimary e.spelling → TakesDot e.spelling := fun hprimary _ hts =>
    hspelled.read_dotted hprimary hts
  cases e with
  | leaf t =>
    rw [guarded]
    split
    · exact hself (.inl fun _ _ => rfl)
    · exact hparen
  | node k cs =>
    rw [guarded]
    split
    · next hguard =>
      refine hself ?_
      simp only [Bool.or_eq_true, beq_iff_eq] at hguard
      rw [spelling_node]
      rcases hguard with ((rfl | rfl) | rfl) | hhead
      · exact isPrimary_of_kind (by decide)
      · exact isPrimary_of_kind (by decide)
      · exact isPrimary_of_kind (by decide)
      · refine .inr ?_
        rw [SyntaxTree.children, List.head?_map, Option.any_map]
        simpa [Function.comp_def] using hhead
    · exact hparen

theorem Grows.dot {e : SyntaxTree} {name : String} (he : TakesDot e.spelling)
    (hname : Match.name.accepts { kind := .name, text := name } = true) : Grows (e.dot name).spelling := by
  rw [SyntaxTree.dot, spelling_node]
  simp only [List.map_cons, List.map_nil, spelling_bare]
  exact Grows.member he rfl rfl hname

theorem positionals_ofArguments {es : List SyntaxTree} (h : ∀ e ∈ es, Fits e.spelling) :
    Positionals ((ofArguments es).map SyntaxTree.spelling) := by
  fun_induction ofArguments es with
  | case1 => exact .nil
  | case2 e =>
    simp only [List.map_cons, List.map_nil, spelling_node, spelling_bare]
    exact .last (h e (by simp))
  | case3 e f es ih =>
    have hmore := ih fun x hx => h x (List.mem_cons_of_mem _ hx)
    obtain ⟨a, as, has⟩ : ∃ a as, ofArguments (f :: es) = a :: as := by
      cases es with
      | nil => exact ⟨_, _, rfl⟩
      | cons g es => exact ⟨_, _, rfl⟩
    rw [has, List.map_cons] at hmore
    rw [has]
    simp only [List.map_cons, List.map_nil, spelling_node, spelling_bare]
    exact .cons (h e (by simp)) rfl rfl hmore

theorem Grows.apply {f : SyntaxTree} {es : List SyntaxTree} (hf : Grows f.spelling) (hes : ∀ e ∈ es, Fits e.spelling) :
    Grows (f.apply es).spelling := by
  have hspelling : (f.apply es).spelling = .node .call (f.spelling :: .leaf { kind := .operator, text := "(" } ::
      ((ofArguments es).map SyntaxTree.spelling ++ [.leaf { kind := .operator, text := ")" }])) := by
    simp [SyntaxTree.apply, ofOperator, Token.spelling]
  rw [hspelling]
  exact Grows.call hf rfl rfl rfl (positionals_ofArguments hes)

end Grammar

end Conformance.Source
