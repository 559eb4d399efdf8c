import Conformance.Proofs.Grammar.Attributes
import Conformance.Proofs.Source.Standing

/-!
# Parsed statements

What is known of every statement of a parsed text, at any depth: its lines can be read (`Readable`), so that their trees
hold tokens and their attributes are names, and its blocks hold statements (`parse?_meets`).  So each definition has a last token (`Suite.exists_lastToken`), and each head the parts that errors
point at (`FunctionHead.Shaped`).

Blocks hold statements because the layout opens a block only for a line that it puts there: that no open block but the
outermost one is empty is kept by every line that is taken in (`Layout.offers_step`).
-/

namespace Conformance.Source

open SyntaxTree Grammar Peg Conformance.Text.Identifier

/-! ## Names -/

/-- Whether the token is a valid name or none at all. -/
def Token.isIdentified (t : Token) : Bool := t.kind != .name || isIdentifier t.text

theorem Token.isIdentified_iff {t : Token} : t.isIdentified = true ↔ (t.kind = .name → isIdentifier t.text = true) := by
  rw [isIdentified, Bool.or_eq_true, bne_iff_ne, ← Decidable.imp_iff_not_or]

/-- No operator is a valid name. -/
theorem Token.proper_of_isIdentified {t : Token} (h : t.isIdentified = true) : t.Proper := by
  have hnone : ∀ s ∈ punctuation, isIdentifier s = false := by decide
  intro hname hmem
  have hvalid := isIdentified_iff.mp h hname
  rw [hnone _ hmem] at hvalid
  cases hvalid

/-- Giving tokens their places keeps their texts. -/
theorem placeTokens_isIdentified {style : Style} {indent : String} {p : Position} {ts : List Token}
    (h : ∀ t ∈ ts, t.isIdentified = true) : ∀ t ∈ (placeTokens style indent p ts).1, t.isIdentified = true := by
  induction ts generalizing p with
  | nil => exact h
  | cons t ts ih =>
    obtain ⟨ht, hts⟩ := List.forall_mem_cons.mp h
    rw [placeTokens]
    exact List.forall_mem_cons.mpr ⟨ht, ih hts⟩

theorem LogicalLine.placed_isIdentified {l : LogicalLine} (h : l.Spaced) (style : Style) (line : Nat)
    (indent : String) : ∀ t ∈ (l.placed style line indent).1, t.isIdentified = true := by
  refine placeTokens_isIdentified fun t ht => ?_
  obtain ⟨u, hu, rfl⟩ := List.mem_map.mp ht
  exact Token.isIdentified_iff.mpr (h.tokens u hu).identifier

/-! ## Lines -/

/-- Trees of a line that is read as them. -/
structure Readable (cases : Bool) (xs : List SyntaxTree) : Prop where
  proper : ∀ t ∈ leavesAll xs, t.Proper
  reads : readLine? (lineSymbol cases) (leavesAll xs) = some xs

theorem is_simple_of_read {ts rest : List Token} {y : SyntaxTree} (h : read (.sym .simple) ts = some ([y], rest)) :
    y.is .simple = true := by
  obtain ⟨cs, heq, -⟩ := took_rule h
  cases heq
  rfl

namespace Readable

variable {cases : Bool} {xs cs more : List SyntaxTree} {x y : SyntaxTree}

theorem read_eq (h : Readable cases xs) : read (.sym (lineSymbol cases)) (leavesAll xs) = some (xs, []) :=
  readLine?_eq_some.mp h.reads

theorem solid (h : Readable cases xs) : ∀ x ∈ xs, x.Solid := read_solid rfl h.read_eq

theorem attributed (h : Readable cases xs) : ∀ x ∈ xs, x.attributed = true := read_attributed rfl h.read_eq

/-- What stands behind a head are small statements. -/
theorem body (h : Readable cases [x, y]) : y.is .simple = true := by
  have hread := h.read_eq
  cases cases with
  | false =>
    obtain ⟨mid, -, hbody⟩ := read_line_pair hread
    exact is_simple_of_read hbody
  | true =>
    obtain ⟨_, mid, _, heq, -, ⟨ds, rfl, -⟩, hbody | ⟨rfl, -⟩⟩ := took_rule hread
    · cases heq
      exact is_simple_of_read hbody
    · cases heq

/-- The head of a definition was read as one. -/
theorem read_head {k : Kind} (hk : k ∈ [Kind.classHead, .functionHead]) (h : Readable false (.node k cs :: more)) :
    ∃ rest, Took head (leavesAll (.node k cs :: more)) [.node k cs] rest := by
  obtain ⟨_, _, _, -, heq, -⟩ | ⟨x, mid, hhead, heq | ⟨y, heq, -⟩⟩ | ⟨ds, heq⟩ | ⟨x, heq, hsimple⟩ :=
    read_line_cases h.read_eq
  · cases heq
    exact absurd hk (by decide)
  · cases heq
    exact ⟨mid, hhead⟩
  · cases heq
    exact ⟨mid, hhead⟩
  · cases heq
    exact absurd hk (by decide)
  · cases heq
    cases beq_iff_eq.mp (is_simple_of_read hsimple)
    exact absurd hk (by decide)

theorem functionShape (h : Readable false (.node .functionHead cs :: more)) : FunctionShape cs := by
  obtain ⟨rest, hhead⟩ := h.read_head (by decide)
  exact functionShape_of_took h.proper hhead

theorem classShape (h : Readable false (.node .classHead cs :: more)) : ClassShape cs := by
  obtain ⟨rest, hhead⟩ := h.read_head (by decide)
  exact classShape_of_took h.proper hhead

/-- What follows the sign of a decorator was read as an expression. -/
theorem decorator {sign : Token} {e : SyntaxTree} (h : Readable false [.node .decorator [.leaf sign, e]]) :
    read (.sym .namedExpression) e.leaves = some ([e], []) := by
  obtain ⟨t, us, e', htokens, heq, hnamed⟩ | ⟨x, mid, hhead, heq | ⟨y, heq, -⟩⟩ | ⟨ds, heq⟩ | ⟨x, heq, hsimple⟩ :=
    read_line_cases h.read_eq
  · cases heq
    have hleaves : e.leaves = us := by simpa [leavesAll, leaves] using htokens
    rw [hleaves, hnamed]
  · cases heq
    exact absurd hhead not_took_decorator
  · cases heq
  · cases heq
  · cases heq
    cases is_simple_of_read hsimple

end Readable

/-! ## Rows -/

/-- What is asked of parsed statements: their lines can be read. -/
def parsedForm : Form :=
  { line := Readable, empty := fun _ => True, stop := fun _ => True, indent := fun _ => True }

theorem LogicalLine.offers_parsed {l : LogicalLine} (h : ∀ t ∈ l.tokens, t.isIdentified = true) :
    l.Offers parsedForm := by
  refine ⟨fun cases xs hread => ?_, fun _ _ => trivial, trivial⟩
  have hleaves := readLine?_leaves hread
  exact ⟨fun t ht => Token.proper_of_isIdentified (h t (hleaves ▸ ht)), hleaves ▸ hread⟩

theorem rowsOffer_iff {f : Form} {style : Style} {rows : List Row} :
    rowsOffer f style rows ↔ ∀ row ∈ rows, row.Offers f style := by
  induction rows with
  | nil => simp [rowsOffer]
  | cons row rows ih => simp [rowsOffer, ih]

section
variable (target : Style)

/-- The rows of the open blocks have the form, and no block but the outermost one is empty. -/
def OpenOffer : OpenBlock → List OpenBlock → Prop
  | inner, [] => ∀ row ∈ inner.rows, row.Offers parsedForm target
  | inner, outer :: blocks =>
    inner.rows ≠ [] ∧ (∀ row ∈ inner.rows, row.Offers parsedForm target) ∧ OpenOffer outer blocks

variable {target} {style : Style}

theorem OpenOffer.rows {inner : OpenBlock} {outer : List OpenBlock} (h : OpenOffer target inner outer) :
    ∀ row ∈ inner.rows, row.Offers parsedForm target := by
  cases outer with
  | nil => exact h
  | cons o os => exact h.2.1

/-- A block may be replaced by one that is not empty. -/
theorem OpenOffer.replace {inner inner' : OpenBlock} {outer : List OpenBlock} (h : OpenOffer target inner outer)
    (hne : inner'.rows ≠ []) (hrows : ∀ row ∈ inner'.rows, row.Offers parsedForm target) :
    OpenOffer target inner' outer := by
  cases outer with
  | nil => exact hrows
  | cons o os => exact ⟨hne, hrows, h.2.2⟩

/-- Ending a block gives a row that has the form. -/
theorem OpenBlock.offers_attach {outer inner outer' : OpenBlock} {footer : List Line} {blocks : List OpenBlock}
    (h : outer.attach inner footer = some outer') (hopen : OpenOffer target inner (outer :: blocks)) :
    OpenOffer target outer' blocks := by
  obtain ⟨hne, hinner, houter⟩ := hopen
  unfold OpenBlock.attach at h
  split at h
  · next line rows hrows =>
    cases h
    have hrest := houter.rows
    rw [hrows] at hrest
    refine houter.replace (List.cons_ne_nil _ _) (List.forall_mem_cons.mpr ⟨?_, (List.forall_mem_cons.mp hrest).2⟩)
    refine ⟨(List.forall_mem_cons.mp hrest).1, trivial, List.reverse_ne_nil_iff.mpr hne, rowsOffer_iff.mpr fun row hrow => ?_,
      fun _ _ => trivial⟩
    exact hinner row (List.mem_reverse.mp hrow)
  · cases h

theorem closeBlocks_offers {column : Nat} {inner inner' : OpenBlock} {outer outer' : List OpenBlock}
    {lead lead' : List Line} (h : closeBlocks style column inner outer lead = some (inner', outer', lead'))
    (hopen : OpenOffer target inner outer) : OpenOffer target inner' outer' := by
  induction outer generalizing inner lead with
  | nil =>
    cases h
    exact hopen
  | cons o os ih =>
    rw [closeBlocks] at h
    split at h
    · obtain ⟨o', hattach, h⟩ := Option.bind_eq_some_iff.mp h
      exact ih h (OpenBlock.offers_attach hattach hopen)
    · cases h
      exact hopen

theorem closeAll_offers {inner : OpenBlock} {outer : List OpenBlock} {lead : List Line} {out : Outline}
    (h : closeAll style inner outer lead = some out) (hopen : OpenOffer target inner outer) :
    rowsOffer parsedForm target out.rows := by
  induction outer generalizing inner lead with
  | nil =>
    cases h
    exact rowsOffer_iff.mpr fun row hrow => hopen row (List.mem_reverse.mp hrow)
  | cons o os ih =>
    rw [closeAll] at h
    obtain ⟨o', hattach, h⟩ := Option.bind_eq_some_iff.mp h
    exact ih h (OpenBlock.offers_attach hattach hopen)

/-- Taking in a line keeps the form: a block that is opened gets the line. -/
theorem Layout.offers_step {layout layout' : Layout} {l : LogicalLine} (h : layout.step style l = some layout')
    (hl : l.Spaced) (hopen : OpenOffer target layout.inner layout.outer) :
    OpenOffer target layout'.inner layout'.outer := by
  have hplain : ∀ line indent {row : LogicalLine}, row.tokens = (l.placed style line indent).1 →
      Row.Offers parsedForm target (.plain row) := fun line indent _ htokens =>
    LogicalLine.offers_parsed (htokens ▸ l.placed_isIdentified hl style line indent)
  obtain ⟨column, inner, outer, lead, hclose, rfl | ⟨hne, block, hempty, rfl⟩⟩ := Layout.step_cases h
  · have hclosed := closeBlocks_offers hclose hopen
    exact hclosed.replace (List.cons_ne_nil _ _) (List.forall_mem_cons.mpr ⟨hplain _ _ rfl, hclosed.rows⟩)
  · have hclosed := closeBlocks_offers hclose hopen
    refine ⟨List.cons_ne_nil _ _, List.forall_mem_cons.mpr ⟨hplain _ _ rfl, ?_⟩, hclosed.replace hne hclosed.rows⟩
    show ∀ row ∈ block.rows, row.Offers parsedForm target
    rw [hempty]
    simp

theorem Layout.offers_steps {lines : List LogicalLine} {layout layout' : Layout}
    (h : lines.foldlM (Layout.step style) layout = some layout') (hlines : ∀ l ∈ lines, l.Spaced)
    (hopen : OpenOffer target layout.inner layout.outer) : OpenOffer target layout'.inner layout'.outer := by
  induction lines generalizing layout with
  | nil =>
    cases h
    exact hopen
  | cons l lines ih =>
    obtain ⟨hl, hlines⟩ := List.forall_mem_cons.mp hlines
    obtain ⟨next, hstep, h⟩ := Option.bind_eq_some_iff.mp h
    exact ih h hlines (Layout.offers_step hstep hl hopen)

theorem outline_offers {cs : List Char} {out : Outline} (h : outline style cs = some out) :
    rowsOffer parsedForm target out.rows := by
  obtain ⟨⟨lines, last⟩, hscan, h⟩ := Option.bind_eq_some_iff.mp h
  obtain ⟨layout, hsteps, hclose⟩ := Option.bind_eq_some_iff.mp h
  obtain ⟨hspaced, -⟩ := scanLines_spaced hscan (by simp)
  refine closeAll_offers hclose (Layout.offers_steps hsteps hspaced ?_)
  intro row hrow
  cases hrow

end

/-- The statements of a parsed text have the form of parsed statements, and stand where they may. -/
theorem parse?_meets {source : String} {m : Module} (h : Module.parse? source = some m) :
    statementsMeet parsedForm false m.body ∧ follows .nothing m.body = true := by
  obtain ⟨out, items, hout, -, hitems, hbody, -, -⟩ := parse?_eq_some h
  have hrows : rowsOffer parsedForm m.style out.rows := outline_offers hout
  exact assemble_meets (by simp) (readRows_meets out.rows hrows hitems) hbody

/-! ## Last tokens -/

/-- A line of small statements has a last token. -/
theorem exists_lastOfLine_of_simple {body : SyntaxTree} (hsolid : body.Solid) (hsimple : body.is .simple = true) :
    ∃ t ∈ body.leaves, body.lastOfLine? = some t := by
  cases body with
  | leaf t => cases hsimple
  | node k cs => exact hsolid.exists_lastOfLine

mutual

theorem Statement.exists_lastToken {cases : Bool} (s : Statement) (h : s.Meets parsedForm cases) :
    ∃ t ∈ s.tokens, s.lastToken? = some t := by
  cases s with
  | simple lead body stop =>
    obtain ⟨-, hsimple, hline, -⟩ := h
    exact exists_lastOfLine_of_simple (hline.solid body List.mem_cons_self) hsimple
  | clause lead head body =>
    obtain ⟨t, ht, hlast⟩ := Suite.exists_lastToken body h.2.2
    exact ⟨t, List.mem_append_right _ ht, hlast⟩
  | ofClass prelude head body =>
    obtain ⟨t, ht, hlast⟩ := Suite.exists_lastToken body h.2.2
    exact ⟨t, List.mem_append_right _ (List.mem_append_right _ ht), hlast⟩
  | ofFunction prelude head body =>
    obtain ⟨t, ht, hlast⟩ := Suite.exists_lastToken body h.2.2.2
    exact ⟨t, List.mem_append_right _ (List.mem_append_right _ ht), hlast⟩

/-- A suite has a last token. -/
theorem Suite.exists_lastToken {cases : Bool} {head : SyntaxTree} (b : Suite) (h : b.Meets parsedForm cases head) :
    ∃ t ∈ b.tokens, b.lastToken? = some t := by
  cases b with
  | inline body stop =>
    obtain ⟨hline, -⟩ := h
    exact exists_lastOfLine_of_simple (hline.solid body (List.mem_cons_of_mem _ List.mem_cons_self))
      hline.body
  | block opening indent body footer =>
    obtain ⟨-, -, -, hne, hbody, -⟩ := h
    exact exists_lastTokenOf body hne hbody

theorem exists_lastTokenOf {cases : Bool} (ss : List Statement) (hne : ss ≠ []) (h : statementsMeet parsedForm cases ss) :
    ∃ t ∈ tokensOf ss, lastTokenOf? ss = some t := by
  cases ss with
  | nil => exact absurd rfl hne
  | cons s ss =>
    cases ss with
    | nil =>
      obtain ⟨t, ht, hlast⟩ := Statement.exists_lastToken s h.1
      exact ⟨t, List.mem_append_left _ ht, hlast⟩
    | cons s' ss =>
      obtain ⟨t, ht, hlast⟩ := exists_lastTokenOf (s' :: ss) (List.cons_ne_nil _ _) h.2
      exact ⟨t, List.mem_append_right _ ht, hlast⟩

end

/-! ## Heads -/

/-- The head of a function that was parsed. -/
structure FunctionHead.Shaped (h : FunctionHead) : Prop where
  accepted : Match.name.accepts h.name = true
  parameters : ∃ opening ps closing, h.parameters = .leaf opening :: (ps ++ [.leaf closing])
  returns : ∀ e, h.returns? = some e → Annotates e

theorem FunctionHead.Shaped.name {h : FunctionHead} (hshaped : h.Shaped) : h.name.kind = .name :=
  beq_iff_eq.mp (Bool.and_eq_true_iff.mp hshaped.accepted).1

/-- The head of a function in a line that can be read. -/
theorem FunctionHead.shaped_of_readable {h : FunctionHead} {more : List SyntaxTree}
    (hline : Readable false (h.tree :: more)) (hdefinite : h.definite = true) : h.Shaped := by
  obtain ⟨async, word, name, types, opening, ps, closing, arrow, colon, hcs, hasync, hname, htypes, harrow⟩ :=
    hline.functionShape
  obtain ⟨asyncToken, headWord, headName, rest⟩ := h
  -- `async` is there in both readings of the head or in neither
  have hparts : headName = name ∧ rest = types ++ .node .parameters (.leaf opening :: (ps ++ [.leaf closing])) ::
      (arrow ++ [.leaf colon]) := by
    cases asyncToken with
    | none =>
      rcases hasync with rfl | ⟨t, rfl⟩
      · simp only [Option.toList_none, List.map_nil, List.nil_append, List.cons.injEq, leaf.injEq] at hcs
        exact ⟨hcs.2.1, hcs.2.2⟩
      · simp only [Option.toList_none, List.map_nil, List.nil_append, List.cons_append, List.cons.injEq,
          leaf.injEq] at hcs
        rw [FunctionHead.definite, hcs.2.2] at hdefinite
        cases hdefinite
    | some a =>
      rcases hasync with rfl | ⟨t, rfl⟩
      · simp only [Option.toList_some, List.map_cons, List.map_nil, List.nil_append, List.cons_append, List.cons.injEq,
          leaf.injEq] at hcs
        obtain ⟨-, -, hcs⟩ := hcs
        rcases htypes with rfl | ⟨ds, rfl⟩ <;> cases hcs
      · simp only [Option.toList_some, List.map_cons, List.map_nil, List.nil_append, List.cons_append, List.cons.injEq,
          leaf.injEq] at hcs
        exact ⟨hcs.2.2.1, hcs.2.2.2⟩
  obtain ⟨rfl, rfl⟩ := hparts
  refine ⟨hname, ⟨opening, ps, closing, ?_⟩, fun e he => ?_⟩
  · rcases htypes with rfl | ⟨ds, rfl⟩ <;> rfl
  · rcases harrow with rfl | ⟨sign, note, rfl, hnote⟩
    · rcases htypes with rfl | ⟨ds, rfl⟩ <;> cases he
    · rcases htypes with rfl | ⟨ds, rfl⟩ <;> cases he <;> exact hnote

/-- The parameters of a function are part of its head. -/
theorem FunctionHead.parameters_subset (h : FunctionHead) : leavesAll h.parameters ⊆ h.tokens := by
  unfold FunctionHead.parameters
  split
  · next list hchild =>
    have hmem := List.mem_of_find?_eq_some hchild
    intro t ht
    have hleaf : t ∈ list.leaves := by
      cases list with
      | leaf u => cases ht
      | node k cs => exact ht
    exact List.mem_append_right _ (List.mem_cons_of_mem _ (List.mem_cons_of_mem _ (mem_leavesAll hmem hleaf)))
  · exact List.nil_subset _

end Conformance.Source
