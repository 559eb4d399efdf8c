import Conformance.Proofs.Expansion.Idempotence
import Conformance.Proofs.Source.Parsed

/-!
# Expressions made of identifiers

An expression is identified if its names are valid identifiers and its attributes are names.  Then the segments of a
dotted name and the short name of what it refers to are identifiers (`isIdentifier_of_segments?`,
`isIdentifier_of_lastSegment?`).  The decorators of a parsed text are identified (`parse?_identified`): the tokenizer
takes only valid names, and laying out lines keeps the texts of tokens.
-/

namespace Conformance.Source

open SyntaxTree Conformance.Text.Identifier

namespace SyntaxTree

/-- Whether all names in the expression are valid, and all attributes in it are names. -/
def identified (t : SyntaxTree) : Bool := t.attributed && t.leaves.all Token.isIdentified

theorem identified_iff {t : SyntaxTree} :
    t.identified = true ↔ t.attributed = true ∧ ∀ u ∈ t.leaves, u.kind = .name → isIdentifier u.text = true := by
  simp only [identified, Bool.and_eq_true, List.all_eq_true, Token.isIdentified_iff]

theorem identified_child {k : Kind} {cs : List SyntaxTree} {c : SyntaxTree} (h : (node k cs).identified = true)
    (hc : c ∈ cs) : c.identified = true := by
  obtain ⟨hattributed, hleaves⟩ := identified_iff.mp h
  exact identified_iff.mpr ⟨(attributed_node.mp hattributed).2 c hc, fun u hu => hleaves u (mem_leavesAll hc hu)⟩

theorem isIdentifier_of_leaf {t : Token} (h : (leaf t).identified = true) (hkind : t.kind = .name) :
    isIdentifier t.text = true :=
  (identified_iff.mp h).2 t (List.mem_singleton.mpr rfl) hkind

/-- What stands after the dot of an attribute is an identifier. -/
theorem isIdentifier_of_member {value dot : SyntaxTree} {t : Token}
    (h : (node .member [value, dot, leaf t]).identified = true) : isIdentifier t.text = true := by
  have hkind := (attributed_node.mp (identified_iff.mp h).1).1 rfl
  exact isIdentifier_of_leaf (identified_child h (by simp)) (beq_iff_eq.mp hkind)

theorem isIdentifier_of_segments? {t : SyntaxTree} {ss : List String} (h : t.identified = true)
    (hss : t.segments? = some ss) : ∀ s ∈ ss, isIdentifier s = true := by
  fun_induction segments? t generalizing ss with
  | case1 t hkind =>
    cases hss
    exact List.forall_mem_singleton.mpr (isIdentifier_of_leaf h (beq_iff_eq.mp hkind))
  | case2 t hkind => cases hss
  | case3 l inner r ih => exact ih (identified_child h (by simp)) hss
  | case4 value dot t ih =>
    obtain ⟨us, hus, rfl⟩ := Option.map_eq_some_iff.mp hss
    exact List.forall_mem_append.mpr ⟨ih (identified_child h (by simp)) hus,
      List.forall_mem_singleton.mpr (isIdentifier_of_member h)⟩
  | case5 => cases hss

theorem isIdentifier_of_lastSegment? {t : SyntaxTree} {s : String} (h : t.identified = true)
    (hs : t.lastSegment? = some s) : isIdentifier s = true := by
  fun_induction lastSegment? t with
  | case1 t hkind =>
    cases hs
    exact isIdentifier_of_leaf h (beq_iff_eq.mp hkind)
  | case2 t hkind => cases hs
  | case3 l inner r ih => exact ih (identified_child h (by simp)) hs
  | case4 value dot t =>
    cases hs
    exact isIdentifier_of_member h
  | case5 value rest ih => exact ih (identified_child h (by simp)) hs
  | case6 callee rest ih => exact ih (identified_child h (by simp)) hs
  | case7 => cases hs

end SyntaxTree

/-! ## Parsed texts -/

theorem Layout.steps_isIdentified {style : Style} {lines : List LogicalLine} {layout layout' : Layout}
    (h : lines.foldlM (Layout.step style) layout = some layout') (hspaced : ∀ l ∈ lines, l.Spaced)
    (hopen : ∀ t ∈ openTokens layout.inner layout.outer, t.isIdentified = true) :
    ∀ t ∈ openTokens layout'.inner layout'.outer, t.isIdentified = true := by
  induction lines generalizing layout with
  | nil =>
    cases h
    exact hopen
  | cons l lines ih =>
    obtain ⟨hl, hlines⟩ := List.forall_mem_cons.mp hspaced
    obtain ⟨next, hstep, h⟩ := Option.bind_eq_some_iff.mp h
    refine ih h hlines ?_
    rw [(Layout.tokens_step hstep).1]
    exact List.forall_mem_append.mpr ⟨hopen, l.placed_isIdentified hl style _ _⟩

/-- The names in a parsed text are valid. -/
theorem parse?_isIdentified {source : String} {m : Module} (h : Module.parse? source = some m) :
    ∀ t ∈ m.tokens, t.isIdentified = true := by
  obtain ⟨lines, last, layout, hscan, hsteps, htokens⟩ := parse?_tokens h
  obtain ⟨hspaced, -⟩ := scanLines_spaced hscan (by simp)
  rw [htokens]
  exact Layout.steps_isIdentified hsteps hspaced fun t ht => by cases ht

/-- What is read in front of a definition holds identifiers if its tokens do. -/
theorem Prelude.decorators_identified {p : Prelude} (h : p.Meets parsedForm)
    (htokens : ∀ t ∈ p.decorators.flatMap Decorator.tokens, t.isIdentified = true) :
    ∀ d ∈ p.decorators, d.expression.identified = true := by
  intro d hd
  obtain ⟨-, hline, -⟩ := h.decorators d hd
  have hattributed := (attributed_node.mp (hline.attributed d.tree List.mem_cons_self)).2 d.expression (by simp)
  refine Bool.and_eq_true_iff.mpr ⟨hattributed, List.all_eq_true.mpr fun t ht => ?_⟩
  exact htokens t (List.mem_flatMap.mpr ⟨d, hd, List.mem_cons_of_mem _ ht⟩)

mutual

theorem Statement.decorators_identified {cases : Bool} (s : Statement) (h : s.Meets parsedForm cases)
    (htokens : ∀ t ∈ s.tokens, t.isIdentified = true) : ∀ d ∈ s.decorators, d.expression.identified = true := by
  cases s with
  | simple lead body stop =>
    intro d hd
    cases hd
  | clause lead head body =>
    exact Suite.decorators_identified body h.2.2 (List.forall_mem_append.mp htokens).2
  | ofClass prelude head body =>
    obtain ⟨hprelude, hrest⟩ := List.forall_mem_append.mp htokens
    exact List.forall_mem_append.mpr ⟨Prelude.decorators_identified h.2.1 hprelude,
      Suite.decorators_identified body h.2.2 (List.forall_mem_append.mp hrest).2⟩
  | ofFunction prelude head body =>
    obtain ⟨hprelude, hrest⟩ := List.forall_mem_append.mp htokens
    exact List.forall_mem_append.mpr ⟨Prelude.decorators_identified h.2.1 hprelude,
      Suite.decorators_identified body h.2.2.2 (List.forall_mem_append.mp hrest).2⟩

theorem Suite.decorators_identified {cases : Bool} {head : SyntaxTree} (b : Suite) (h : b.Meets parsedForm cases head)
    (htokens : ∀ t ∈ b.tokens, t.isIdentified = true) : ∀ d ∈ b.decorators, d.expression.identified = true := by
  cases b with
  | inline body stop =>
    intro d hd
    cases hd
  | block opening indent body footer =>
    obtain ⟨-, -, -, -, hbody, -⟩ := h
    exact decoratorsOf_identified body hbody htokens

theorem decoratorsOf_identified {cases : Bool} (ss : List Statement) (h : statementsMeet parsedForm cases ss)
    (htokens : ∀ t ∈ tokensOf ss, t.isIdentified = true) : ∀ d ∈ decoratorsOf ss, d.expression.identified = true := by
  cases ss with
  | nil =>
    intro d hd
    cases hd
  | cons s ss =>
    obtain ⟨hs, hss⟩ := List.forall_mem_append.mp htokens
    exact List.forall_mem_append.mpr ⟨Statement.decorators_identified s h.1 hs, decoratorsOf_identified ss h.2 hss⟩

end

/-- The decorators of a parsed text hold identifiers. -/
theorem parse?_identified {source : String} {m : Module} (h : Module.parse? source = some m) :
    ∀ d ∈ decoratorsOf m.body, d.expression.identified = true :=
  decoratorsOf_identified m.body (parse?_meets h).1 (parse?_isIdentified h)

end Conformance.Source
