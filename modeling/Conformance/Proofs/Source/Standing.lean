import Mathlib.Data.List.TakeWhile
import Conformance.Proofs.Source.Positions
import Conformance.Proofs.Source.Rows

/-!
# Where tokens stand

The tokens of a parsed text know their places.  These are counted while the text is laid out, line by line, with the
indentation of its block in front of each logical line.  `Standing` says that tokens stand in a text where their places
say, with nothing but white space and comments between them.

* The tokens of a module stand so in the text that the module renders to (`parse?_stands_render`).
* They stand so in the text they were read from, up to the first logical line of it that starts behind a backslash or a
  form feed (`parse?_stands_source`): the blanks in front of a logical line may then be other ones, but as many.

The run over the logical lines carries one invariant: the next line starts where the text before it ends
(`Layout.stands_steps`).
-/

namespace Conformance.Source

open SyntaxTree Grammar Conformance.Text

/-! ## Order of positions -/

namespace Position

/-- Where a text starts. -/
def origin : Position := ⟨1, 1⟩

/-- The first position comes before the second one. -/
def Before (p q : Position) : Prop :=
  p.line < q.line ∨ p.line = q.line ∧ p.column < q.column

theorem Before.after {p q : Position} (h : q.Before p) (cs : List Char) : q.Before (p.after cs) := by
  unfold Before at h ⊢
  fun_induction Position.after p cs with
  | case1 p => exact h
  | case2 p cs ih => exact ih (by dsimp only; omega)
  | case3 p c cs _ hc ih => exact ih (by dsimp only; omega)
  | case4 p c cs _ hc ih => exact ih (by dsimp only; omega)

/-- Characters lead to a later position. -/
theorem before_after {cs : List Char} (h : cs ≠ []) (p : Position) : p.Before (p.after cs) := by
  have hline : p.Before ⟨p.line + 1, 1⟩ := .inl (Nat.lt_succ_self _)
  have hcolumn : p.Before ⟨p.line, p.column + 1⟩ := .inr ⟨rfl, Nat.lt_succ_self _⟩
  fun_cases Position.after p cs with
  | case1 => exact absurd rfl h
  | case2 => exact hline.after _
  | case3 => exact hline.after _
  | case4 => exact hcolumn.after _

end Position

open Position (origin)

/-! ## Tokens in a text -/

/-- A name has characters, all on one line. -/
def Token.Legible (t : Token) : Prop :=
  t.kind = .name → t.text.toList ≠ [] ∧ OneLine t.text.toList

/-- After the characters `pre`, the tokens stand in the text that goes on with `rest`: in their order, each where its
place says, and with white space and comments between them. -/
inductive Standing : List Char → List Token → List Char → Prop
  | nil {pre rest : List Char} : Standing pre [] rest
  | token {pre gap rest : List Char} {t : Token} {ts : List Token} : Gap gap → t.Legible →
      t.extent? = some ⟨origin.after (pre ++ gap), origin.after (pre ++ gap ++ t.text.toList)⟩ →
      Standing (pre ++ gap ++ t.text.toList) ts rest → Standing pre (t :: ts) (gap ++ t.text.toList ++ rest)

theorem Standing.skip {pre gap rest : List Char} {ts : List Token} (hgap : Gap gap) (h : Standing (pre ++ gap) ts rest) :
    Standing pre ts (gap ++ rest) := by
  cases h with
  | nil => exact .nil
  | token hmore hlegible hplace hrest =>
    have hboth := Standing.token (hgap.append hmore) hlegible
      (by simpa only [List.append_assoc] using hplace) (by simpa only [List.append_assoc] using hrest)
    simpa only [List.append_assoc] using hboth

/-- The later tokens stand behind the earlier ones. -/
theorem Standing.of_append {pre rest : List Char} {ts us : List Token} (h : Standing pre (ts ++ us) rest) :
    ∃ mid left, rest = mid ++ left ∧ Standing (pre ++ mid) us left := by
  induction ts generalizing pre rest with
  | nil => exact ⟨[], rest, rfl, by rwa [List.append_nil]⟩
  | cons t ts ih =>
    cases h with
    | @token _ gap rest _ _ _ _ _ hrest =>
      obtain ⟨mid, left, rfl, hleft⟩ := ih hrest
      refine ⟨gap ++ t.text.toList ++ mid, left, by simp only [List.append_assoc], ?_⟩
      simpa only [List.append_assoc] using hleft

/-- The characters that a token was read as are found where its place says. -/
def Token.StandsIn (t : Token) (cs : List Char) : Prop :=
  ∃ before after, cs = before ++ t.text.toList ++ after ∧
    t.extent? = some ⟨origin.after before, origin.after (before ++ t.text.toList)⟩

theorem Standing.mem {pre rest : List Char} {ts : List Token} (h : Standing pre ts rest) {t : Token} (ht : t ∈ ts) :
    t.StandsIn (pre ++ rest) := by
  obtain ⟨us, vs, rfl⟩ := List.append_of_mem ht
  obtain ⟨mid, left, rfl, hleft⟩ := h.of_append
  cases hleft with
  | @token _ gap rest _ _ _ _ hplace _ =>
    exact ⟨pre ++ mid ++ gap, rest, by simp only [List.append_assoc], hplace⟩

/-- A name starts before what stands behind it. -/
theorem Standing.before {pre rest : List Char} {us vs ws : List Token} {t u : Token}
    (h : Standing pre (us ++ t :: (vs ++ u :: ws)) rest) (hname : t.kind = .name) :
    ∃ p q, t.place = some p ∧ u.place = some q ∧ p.Before q := by
  have hplaces {t : Token} {e : Extent} (ht : t.extent? = some e) : t.place = some e.start := by
    obtain ⟨p, hp, rfl⟩ := Option.map_eq_some_iff.mp ht
    exact hp
  obtain ⟨mid, left, -, hleft⟩ := h.of_append
  cases hleft with
  | @token _ gap rest _ _ _ hlegible hfirst hmore =>
    obtain ⟨hne, hline⟩ := hlegible hname
    obtain ⟨mid', left', -, hleft'⟩ := hmore.of_append
    cases hleft' with
    | @token _ gap' rest' _ _ _ _ hsecond _ =>
      refine ⟨_, _, hplaces hfirst, hplaces hsecond, ?_⟩
      have hcut : Seamless (pre ++ mid ++ gap) (t.text.toList ++ (mid' ++ gap')) := by
        intro _ hfeed
        obtain ⟨c, cs, heq⟩ := List.exists_cons_of_ne_nil hne
        rw [heq] at hline hfeed
        have hc := (oneLine_cons.mp hline).1
        cases hfeed
        exact absurd hc (by decide)
      have hafter := Position.after_append hcut origin
      have hsame : pre ++ mid ++ gap ++ t.text.toList ++ mid' ++ gap' =
          pre ++ mid ++ gap ++ (t.text.toList ++ (mid' ++ gap')) := by
        simp only [List.append_assoc]
      dsimp only
      rw [hsame, hafter]
      exact Position.before_after (by simp [hne]) _

/-! ## The tokens of a line -/

theorem Token.charsOf_settled_chunks {t : Token} (h : t.Raw) (style : Style) (indent : String) :
    (String.join ((t.settle style indent).chunks style indent)).toList = t.chars := by
  rw [String.toList_join]
  exact (Token.charsOf_settle h style indent).trans (Token.charsOf_raw h style)

/-- Tokens that were given their places stand there. -/
theorem stands_placeTokens (style : Style) (indent : String) {ts : List Token} (hfresh : ∀ t ∈ ts, t.Fresh)
    {pre : List Char} {ps : List (List Char)} (hflows : Flows (pre :: (ts.map Token.chars ++ ps))) :
    (placeTokens style indent (origin.after pre) (ts.map (Token.settle style indent))).2 =
      origin.after (pre ++ (ts.map Token.chars).flatten) ∧
    ∀ more rest, Standing (pre ++ (ts.map Token.chars).flatten) more rest →
      Standing pre ((placeTokens style indent (origin.after pre) (ts.map (Token.settle style indent))).1 ++ more)
        ((ts.map Token.chars).flatten ++ rest) := by
  induction ts generalizing pre with
  | nil =>
    refine ⟨congrArg origin.after (List.append_nil pre).symm, fun more rest h => ?_⟩
    rwa [List.map_nil, List.flatten_nil, List.append_nil] at h
  | cons t ts ih =>
    obtain ⟨ht, hts⟩ := List.forall_mem_cons.mp hfresh
    obtain ⟨hlast, hstands⟩ := ih hts hflows.merge
    have hnext : (origin.after pre).past (String.join ((t.settle style indent).chunks style indent)) =
        origin.after (pre ++ t.chars) := by
      rw [Position.past, t.charsOf_settled_chunks ht.raw]
      exact (hflows.after origin).symm
    rw [List.map_cons, List.map_cons, List.flatten_cons, placeTokens, hnext]
    dsimp only
    refine ⟨by rw [hlast, List.append_assoc], fun more rest h => ?_⟩
    rw [← List.append_assoc] at h
    have hrest := hstands more rest h
    rw [t.chars_eq, ← List.append_assoc] at hrest
    have htoken := hrest.skip ht.gap
    have hend : origin.after (pre ++ t.text.toList) = (origin.after pre).after t.text.toList := by
      have hcut := hflows.1
      rw [List.map_cons, List.cons_append, List.flatten_cons, t.chars_eq, List.append_assoc] at hcut
      exact Position.after_append hcut.front origin
    have hplaced := @Standing.token pre [] _ { t.settle style indent with place := some (origin.after pre) } _
      .nil ht.name (by rw [List.append_nil]; exact congrArg (fun q => some (Extent.mk _ q)) hend.symm)
      (by rw [List.append_nil]; exact htoken)
    have htext : (t.settle style indent).text = t.text := rfl
    rw [t.chars_eq]
    simpa only [htext, List.append_assoc, List.nil_append, List.cons_append] using hplaced

/-- The tokens of a logical line, placed for the number of the line it starts in and its indentation, and the position
after them. -/
def LogicalLine.placed (style : Style) (line : Nat) (indent : String) (l : LogicalLine) : List Token × Position :=
  placeTokens style indent
    (Position.past ⟨line, 1⟩ (String.join (l.lead.flatMap (Line.chunks style "")) ++ indent))
    (l.tokens.map (Token.settle style indent))

/-- The characters of a logical line up to its end, with the given blanks in front of its first token. -/
def LogicalLine.code (l : LogicalLine) (blank : List Char) : List Char :=
  (l.lead.map Line.chars).flatten ++ blank ++ (l.tokens.map Token.chars).flatten

theorem LogicalLine.flatten_pieces (l : LogicalLine) (blank : List Char) :
    (l.pieces blank).flatten = l.code blank ++ l.stop.chars := by
  simp [LogicalLine.pieces, LogicalLine.code]

/-- The end of a logical line is counted after the rest of it. -/
theorem LogicalLine.after_pieces {l : LogicalLine} {blank pre : List Char} {ps : List (List Char)}
    (h : Flows (pre :: (l.pieces blank ++ ps))) (p : Position) :
    p.after (pre ++ (l.pieces blank).flatten) = (p.after (pre ++ l.code blank)).after l.stop.chars := by
  have hpieces : l.pieces blank ++ ps =
      (l.lead.map Line.chars ++ blank :: l.tokens.map Token.chars) ++ (l.stop.chars :: ps) := by
    simp [LogicalLine.pieces]
  have hcode : (l.lead.map Line.chars ++ blank :: l.tokens.map Token.chars).flatten = l.code blank := by
    simp [LogicalLine.code]
  rw [hpieces] at h
  have hmerged := h.merge_all.1
  rw [hcode] at hmerged
  rw [l.flatten_pieces, ← List.append_assoc, hmerged.after]

theorem charsOf_lead {lead : List Line} (h : ∀ e ∈ lead, e.Spaced) (style : Style) :
    charsOf (lead.flatMap (Line.chunks style "")) = (lead.map Line.chars).flatten := by
  induction lead with
  | nil => rfl
  | cons e lead ih =>
    obtain ⟨⟨-, nl, hnl⟩, hlead⟩ := List.forall_mem_cons.mp h
    have he : charsOf (e.chunks style "") = e.chars := by
      simp only [Line.chunks, Line.chars, Line.stretch, Stretch.chars, hnl, Newline.text, charsOf_append, charsOf_chunk,
        charsOf_cons, charsOf_nil, String.toList_empty, ite_self, List.append_nil, apply_ite charsOf, List.append_assoc]
    rw [List.flatMap_cons, charsOf_append, he, ih hlead, List.map_cons, List.flatten_cons]

section
variable {l : LogicalLine} {indent : String} {blank pre : List Char} {line : Nat} {ps : List (List Char)}

/-- The tokens of a logical line stand where they are placed, also if other blanks stand in front of them, as many. -/
theorem LogicalLine.stands_placed (hspaced : l.Spaced) (hindent : ∀ c ∈ indent.toList, isBlank c = true)
    (hblank : ∀ c ∈ blank, isBlank c = true) (hlength : indent.toList.length = blank.length)
    (hpre : origin.after pre = ⟨line, 1⟩) (hflows : Flows (pre :: (l.pieces blank ++ ps))) (style : Style) :
    (l.placed style line indent).2 = origin.after (pre ++ l.code blank) ∧
      ∀ more rest, Standing (pre ++ l.code blank) more rest →
        Standing pre ((l.placed style line indent).1 ++ more) (l.code blank ++ rest) := by
  rw [LogicalLine.pieces, List.append_assoc] at hflows
  obtain ⟨hlead, hafter⟩ := hflows.merge_all
  have hstart : Position.past ⟨line, 1⟩ (String.join (l.lead.flatMap (Line.chunks style "")) ++ indent) =
      origin.after (pre ++ (l.lead.map Line.chars).flatten ++ blank) := by
    have hcut : Seamless (l.lead.map Line.chars).flatten indent.toList := fun _ => head?_ne_feed_of_isBlank hindent
    have hchars : (String.join (l.lead.flatMap (Line.chunks style ""))).toList = (l.lead.map Line.chars).flatten := by
      rw [String.toList_join]
      exact charsOf_lead hspaced.lead style
    rw [Position.past, String.toList_append, hchars, Position.after_append hcut, ← hpre, ← hafter, hlead.after,
      Position.after_oneLine (oneLine_of_isBlank hindent), Position.after_oneLine (oneLine_of_isBlank hblank), hlength]
  have hgap : Gap ((l.lead.map Line.chars).flatten ++ blank) := by
    refine (Gap.flatten fun p hp => ?_).append (.of_blank hblank)
    obtain ⟨e, he, rfl⟩ := List.mem_map.mp hp
    exact (hspaced.lead e he).1
  have htokens : Flows ((pre ++ (l.lead.map Line.chars).flatten ++ blank) ::
      (l.tokens.map Token.chars ++ (l.stop.chars :: ps))) := by
    have hmerged := hlead.merge
    simpa using hmerged
  obtain ⟨hlast, hstands⟩ := stands_placeTokens style indent hspaced.tokens htokens
  unfold LogicalLine.placed LogicalLine.code
  rw [hstart]
  constructor
  · rw [hlast]
    simp only [List.append_assoc]
  · intro more rest h
    have hall := hstands more rest (by simpa only [List.append_assoc] using h)
    rw [List.append_assoc] at hall
    simpa only [List.append_assoc] using hall.skip hgap

end

/-! ## The tokens of rows -/

mutual

/-- The tokens of a row and of the block under it. -/
def Row.tokens : Row → List Token
  | .plain line => line.tokens
  | .opening line _ body _ => line.tokens ++ rowsTokens body

/-- The tokens of rows. -/
def rowsTokens : List Row → List Token
  | [] => []
  | row :: rows => row.tokens ++ rowsTokens rows

end

theorem rowsTokens_append (xs ys : List Row) : rowsTokens (xs ++ ys) = rowsTokens xs ++ rowsTokens ys := by
  induction xs with
  | nil => rfl
  | cons x xs ih => rw [List.cons_append, rowsTokens, rowsTokens, ih, List.append_assoc]

/-- The tokens of the blocks that are open. -/
def openTokens : OpenBlock → List OpenBlock → List Token
  | inner, [] => rowsTokens inner.rows.reverse
  | inner, outer :: blocks => openTokens outer blocks ++ rowsTokens inner.rows.reverse

/-- What is put behind the rows of a block is put behind the tokens of the blocks that are open. -/
theorem openTokens_append {b b' : OpenBlock} {more : List Token} (blocks : List OpenBlock)
    (h : rowsTokens b'.rows.reverse = rowsTokens b.rows.reverse ++ more) :
    openTokens b' blocks = openTokens b blocks ++ more := by
  cases blocks with
  | nil => exact h
  | cons o os => simp only [openTokens, h, List.append_assoc]

theorem OpenBlock.tokens_attach {outer inner outer' : OpenBlock} {footer : List Line}
    (h : outer.attach inner footer = some outer') (blocks : List OpenBlock) :
    openTokens outer' blocks = openTokens inner (outer :: blocks) := by
  unfold OpenBlock.attach at h
  split at h
  · next line rows hrows =>
    cases h
    apply openTokens_append
    simp only [hrows, List.reverse_cons, rowsTokens_append, rowsTokens, Row.tokens, List.append_nil,
      List.append_assoc]
  · cases h

/-- Ending blocks keeps the tokens. -/
theorem closeBlocks_tokens {style : Style} {column : Nat} {inner inner' : OpenBlock} {outer outer' : List OpenBlock}
    {lead lead' : List Line} (h : closeBlocks style column inner outer lead = some (inner', outer', lead')) :
    openTokens inner' outer' = openTokens inner outer := by
  induction outer generalizing inner lead with
  | nil =>
    cases h
    rfl
  | cons o os ih =>
    rw [closeBlocks] at h
    split at h
    · obtain ⟨o', hattach, h⟩ := Option.bind_eq_some_iff.mp h
      exact (ih h).trans (OpenBlock.tokens_attach hattach os)
    · cases h
      rfl

theorem closeAll_tokens {style : Style} {inner : OpenBlock} {outer : List OpenBlock} {lead : List Line}
    {out : Outline} (h : closeAll style inner outer lead = some out) : rowsTokens out.rows = openTokens inner outer := by
  induction outer generalizing inner lead with
  | nil =>
    cases h
    rfl
  | cons o os ih =>
    rw [closeAll] at h
    obtain ⟨o', hattach, h⟩ := Option.bind_eq_some_iff.mp h
    exact (ih h).trans (OpenBlock.tokens_attach hattach os)

/-! ## Taking in a line -/

section
variable {style : Style} {layout layout' : Layout} {l : LogicalLine}

theorem closeBlocks_self (inner : OpenBlock) (outer : List OpenBlock) (lead : List Line) :
    closeBlocks style inner.width.column inner outer lead = some (inner, outer, lead) := by
  cases outer with
  | nil => rfl
  | cons o os => rw [closeBlocks, if_neg (Nat.lt_irrefl _)]

/-- Taking in a line ends blocks, perhaps none; then the line goes on with the innermost block that is left or starts
one under it. -/
theorem Layout.step_cases (h : layout.step style l = some layout') :
    ∃ column inner outer lead, closeBlocks style column layout.inner layout.outer l.lead = some (inner, outer, lead) ∧
      (layout' = ({ layout with inner, outer } : Layout).push style lead l ∨
        inner.rows ≠ [] ∧ ∃ block : OpenBlock, block.rows = [] ∧
          layout' = ({ layout with inner := block, outer := inner :: outer } : Layout).push style lead l) := by
  unfold Layout.step at h
  split at h
  · cases h
    exact ⟨_, _, _, _, closeBlocks_self _ _ _, .inl rfl⟩
  · obtain ⟨⟨inner, outer, lead⟩, hclose, h⟩ := Option.bind_eq_some_iff.mp h
    refine ⟨_, inner, outer, lead, hclose, ?_⟩
    dsimp only at h
    split at h
    · split at h
      · cases h
        exact .inl rfl
      · cases h
    · split at h
      · next hdeeper =>
        obtain ⟨relative, -, h⟩ := Option.bind_eq_some_iff.mp h
        cases h
        exact .inr ⟨hdeeper.2.2.2.2, _, rfl, rfl⟩
      · cases h

theorem Layout.tokens_push (lead : List Line) :
    openTokens (layout.push style lead l).inner (layout.push style lead l).outer =
      openTokens layout.inner layout.outer ++ (l.placed style layout.line layout.inner.indent).1 := by
  apply openTokens_append
  simp only [Layout.push, List.reverse_cons, rowsTokens_append, rowsTokens, Row.tokens, List.append_nil]
  rfl

/-- Taking in a line puts its tokens behind those of the blocks that are open, placed with the indentation of the block
that the line ends up in. -/
theorem Layout.tokens_step (h : layout.step style l = some layout') :
    openTokens layout'.inner layout'.outer = openTokens layout.inner layout.outer ++
        (l.placed style layout.line layout'.inner.indent).1 ∧
      layout'.line = (l.placed style layout.line layout'.inner.indent).2.line + 1 := by
  obtain ⟨column, inner, outer, lead, hclose, rfl | ⟨-, block, hempty, rfl⟩⟩ := Layout.step_cases h
  · refine ⟨?_, rfl⟩
    rw [Layout.tokens_push, ← closeBlocks_tokens hclose]
    rfl
  · refine ⟨?_, rfl⟩
    rw [Layout.tokens_push, openTokens, hempty, ← closeBlocks_tokens hclose]
    exact congrArg (· ++ _) (List.append_nil _)

/-- What is needed to count with other blanks in front of a logical line than those it is written with. -/
def SameBlanks (indent blank : List Char) : Prop :=
  (∀ c ∈ indent, isBlank c = true) ∧ (∀ c ∈ blank, isBlank c = true) ∧ indent.length = blank.length

/-- Taking in lines puts tokens behind those of the blocks that are open which stand where the lines are. -/
theorem Layout.stands_steps {lines : List LogicalLine} {blanks : List (List Char)} {pre : List Char}
    {ps : List (List Char)} (h : lines.foldlM (Layout.step style) layout = some layout')
    (hspaced : ∀ l ∈ lines, l.Spaced) (hended : Ended lines)
    (hblanks : List.Forall₂ SameBlanks (layout.indents style lines) blanks)
    (hpre : origin.after pre = ⟨layout.line, 1⟩) (hflows : Flows (pre :: (piecesOf lines blanks ++ ps))) :
    ∃ new, openTokens layout'.inner layout'.outer = openTokens layout.inner layout.outer ++ new ∧
      ∀ rest, Standing pre new ((piecesOf lines blanks).flatten ++ rest) := by
  induction lines generalizing layout blanks pre with
  | nil =>
    cases h
    exact ⟨[], (List.append_nil _).symm, fun rest => .nil⟩
  | cons l lines ih =>
    obtain ⟨next, hstep, h⟩ := Option.bind_eq_some_iff.mp h
    rw [Layout.indents_cons hstep] at hblanks
    cases hblanks with
    | @cons _ blank _ blanks hfirst hrest =>
      obtain ⟨hl, hlines⟩ := List.forall_mem_cons.mp hspaced
      obtain ⟨htokens, hline⟩ := Layout.tokens_step hstep
      rw [piecesOf_cons, List.append_assoc] at hflows
      obtain ⟨hlast, hstands⟩ := l.stands_placed hl hfirst.1 hfirst.2.1 hfirst.2.2 hpre hflows style
      rw [piecesOf_cons, List.flatten_append, l.flatten_pieces]
      by_cases hnil : lines = []
      · -- the end of the last line does not matter
        subst hnil
        cases h
        refine ⟨_, htokens, fun rest => ?_⟩
        have hthis := hstands [] (l.stop.chars ++ (piecesOf [] blanks).flatten ++ rest) .nil
        simpa only [List.append_assoc, List.append_nil] using hthis
      · obtain ⟨nl, hnl, hown, hnote, hgap⟩ := hended.1 hnil
        obtain ⟨hmerged, hafter⟩ := hflows.merge_all
        have hnext : origin.after (pre ++ (l.pieces blank).flatten) = ⟨next.line, 1⟩ := by
          have hstop : l.stop.chars = l.stop.comment.toList ++ nl.toList := by
            rw [LineEnd.chars, hown]
            rfl
          rw [LogicalLine.after_pieces hflows, ← hlast, hstop, Position.after_lineBreak hnote hnl, hline]
        obtain ⟨new, hnew, hmore⟩ := ih h hlines hended.2 hrest hnext hmerged
        refine ⟨_, by rw [hnew, htokens, List.append_assoc], fun rest => ?_⟩
        have hthis := hstands new (l.stop.chars ++ ((piecesOf lines blanks).flatten ++ rest)) (by
          apply Standing.skip hgap
          rw [List.append_assoc, ← l.flatten_pieces]
          exact hmore rest)
        simpa only [List.append_assoc] using hthis

end

/-! ## The tokens of statements -/

def Decorator.tokens (d : Decorator) : List Token := d.sign :: d.expression.leaves

def ClassHead.tokens (h : ClassHead) : List Token := h.word :: h.name :: leavesAll h.rest

def FunctionHead.tokens (h : FunctionHead) : List Token := h.async.toList ++ h.word :: h.name :: leavesAll h.rest

mutual

/-- The tokens of a statement, in the order of the text. -/
def Statement.tokens : Statement → List Token
  | .simple _ body _ => body.leaves
  | .clause _ head body => head.leaves ++ body.tokens
  | .ofClass prelude head body => prelude.decorators.flatMap Decorator.tokens ++ (head.tokens ++ body.tokens)
  | .ofFunction prelude head body => prelude.decorators.flatMap Decorator.tokens ++ (head.tokens ++ body.tokens)

/-- The tokens of a suite. -/
def Suite.tokens : Suite → List Token
  | .inline body _ => body.leaves
  | .block _ _ body _ => tokensOf body

/-- The tokens of statements. -/
def tokensOf : List Statement → List Token
  | [] => []
  | s :: ss => s.tokens ++ tokensOf ss

end

/-- The tokens of a module. -/
def Module.tokens (m : Module) : List Token := tokensOf m.body

def Item.tokens : Item → List Token
  | .decorator d => d.tokens
  | .statement _ s => s.tokens

theorem compound_tokens {lead : List Line} {head : SyntaxTree} {body : Suite} {item : Item}
    (h : Item.compound lead head body = some item) : item.tokens = head.leaves ++ body.tokens := by
  unfold Item.compound at h
  split at h
  · cases h
    simp [Item.tokens, Statement.tokens, ClassHead.tokens, leaves, leavesAll]
  · cases h
    simp [Item.tokens, Statement.tokens, FunctionHead.tokens, leaves, leavesAll]
  · cases h
    simp [Item.tokens, Statement.tokens, FunctionHead.tokens, leaves, leavesAll]
  · cases h
  · cases h
  · cases h
    rfl
  · cases h

theorem Prelude.decorate_tokens (decorators : List Decorator) (lead : List Line) :
    (Prelude.decorate decorators { lead }).decorators.flatMap Decorator.tokens =
      decorators.flatMap Decorator.tokens := by
  cases decorators with
  | nil => rfl
  | cons first more => rfl

/-- Putting the rows of a block together keeps their tokens. -/
theorem assemble_tokens {items : List Item} {a : Awaiting} {waiting : List Decorator} {ss : List Statement}
    (h : assemble a waiting items = some ss) (hitems : ∀ i ∈ items, i.Undecorated) :
    tokensOf ss = waiting.reverse.flatMap Decorator.tokens ++ items.flatMap Item.tokens := by
  induction items generalizing a waiting ss with
  | nil =>
    rw [assemble] at h
    split at h
    · cases h
    · next hopen =>
      cases h
      have hwaiting : waiting = [] := by
        by_contra hne
        exact hopen (.inr (by simpa using hne))
      rw [hwaiting]
      rfl
  | cons item items ih =>
    obtain ⟨hitem, hrest⟩ := List.forall_mem_cons.mp hitems
    cases item with
    | decorator d =>
      rw [assemble] at h
      split at h
      · cases h
      · rw [ih h hrest, List.reverse_cons, List.flatMap_append, List.flatMap_singleton, List.flatMap_cons,
          List.append_assoc]
        rfl
    | statement k s =>
      rw [assemble] at h
      obtain ⟨next, -, h⟩ := Option.bind_eq_some_iff.mp h
      obtain ⟨more, hmore, h⟩ := Option.bind_eq_some_iff.mp h
      have hall := ih hmore hrest
      rw [List.reverse_nil, List.flatMap_nil, List.nil_append] at hall
      split at h
      · cases h
        rw [tokensOf, hall]
        rfl
      · next prelude head body _ _ _ =>
        cases h
        have hlead : prelude = { lead := prelude.lead } := hitem
        rw [tokensOf, Statement.tokens, hlead, Prelude.decorate_tokens, hall, List.append_assoc]
        rfl
      · next prelude head body _ _ _ =>
        cases h
        have hlead : prelude = { lead := prelude.lead } := hitem
        rw [tokensOf, Statement.tokens, hlead, Prelude.decorate_tokens, hall, List.append_assoc]
        rfl
      · cases h

mutual

/-- An item has the tokens of the row it was read from. -/
theorem readRow_tokens {style : Style} {cases : Bool} (row : Row) {item : Item}
    (h : readRow style cases row = some item) : item.tokens = row.tokens := by
  cases row with
  | plain line =>
    rw [readRow] at h
    obtain ⟨trees, htrees, h⟩ := Option.bind_eq_some_iff.mp h
    have hleaves := readLine?_leaves htrees
    rw [Row.tokens, ← hleaves]
    split at h
    · cases h
      simp [Item.tokens, Decorator.tokens, leaves, leavesAll]
    · cases h
      simp [Item.tokens, Statement.tokens, leavesAll]
    · rw [compound_tokens h]
      simp [Suite.tokens, leavesAll]
    · cases h
  | opening line relative body footer =>
    rw [readRow] at h
    obtain ⟨trees, htrees, h⟩ := Option.bind_eq_some_iff.mp h
    have hleaves := readLine?_leaves htrees
    rw [Row.tokens, ← hleaves]
    split at h
    · obtain ⟨items, hitems, h⟩ := Option.bind_eq_some_iff.mp h
      obtain ⟨statements, hstatements, h⟩ := Option.bind_eq_some_iff.mp h
      have hblock := assemble_tokens hstatements (readRows_writes style body hitems "").1
      rw [List.reverse_nil, List.flatMap_nil, List.nil_append, readRows_tokens body hitems] at hblock
      rw [compound_tokens h, Suite.tokens, hblock, leavesAll, leavesAll, List.append_nil]
    · cases h

/-- Items have the tokens of the rows they were read from. -/
theorem readRows_tokens {style : Style} {cases : Bool} (rows : List Row) {items : List Item}
    (h : readRows style cases rows = some items) : items.flatMap Item.tokens = rowsTokens rows := by
  cases rows with
  | nil =>
    cases h
    rfl
  | cons row rows =>
    rw [readRows] at h
    obtain ⟨item, hitem, h⟩ := Option.bind_eq_some_iff.mp h
    obtain ⟨more, hmore, h⟩ := Option.bind_eq_some_iff.mp h
    cases h
    rw [List.flatMap_cons, readRow_tokens row hitem, readRows_tokens rows hmore, rowsTokens]

end

/-! ## Parsed texts -/

theorem LogicalLine.chars_stretches (l : LogicalLine) (blank : List Char) :
    (l.stretches {} "" blank).flatMap (Stretch.chars {}) = (l.pieces blank).flatten := by
  have hlead : (l.lead.map (Line.stretch "")).flatMap (Stretch.chars {}) = (l.lead.map Line.chars).flatten := by
    rw [List.flatMap_map, List.flatMap_def]
    rfl
  rw [LogicalLine.stretches, List.flatMap_append, hlead, l.flatten_pieces, LogicalLine.code, charsOf_tokens]
  simp [Stretch.chars, LineEnd.chars]

/-- A text is its pieces. -/
theorem textOf_eq {lines : List LogicalLine} {blanks : List (List Char)} {last : List Line} :
    textOf lines blanks last = (piecesOf lines blanks).flatten ++ (last.map Line.chars).flatten := by
  have hlast : (last.map (Line.stretch "")).flatMap (Stretch.chars {}) = (last.map Line.chars).flatten := by
    rw [List.flatMap_map, List.flatMap_def]
    rfl
  rw [textOf, List.flatMap_append, hlast]
  congr 1
  induction lines generalizing blanks with
  | nil => rfl
  | cons l lines ih =>
    cases blanks with
    | nil => rfl
    | cons blank blanks =>
      have hcons : stretchesOf {} (l :: lines) (blank :: blanks) =
          l.stretches {} "" blank ++ stretchesOf {} lines blanks := rfl
      rw [hcons, List.flatMap_append, l.chars_stretches, ih, piecesOf_cons, List.flatten_append]

/-- The indentations that logical lines are written with are blanks. -/
theorem MarginOf.isBlank {lines : List LogicalLine} {blank : String} (h : MarginOf lines blank)
    (hspaced : ∀ l ∈ lines, l.Spaced) : ∀ c ∈ blank.toList, Text.isBlank c = true := by
  rcases h with rfl | ⟨l, hl, hmargin⟩
  · simp
  · exact (hspaced l hl).margin blank hmargin

section
variable {source : String} {m : Module} {lines : List LogicalLine} {last : List Line} {blanks : List (List Char)}

/-- The tokens of a parsed text are those that its lines put into blocks. -/
theorem parse?_tokens (h : Module.parse? source = some m) :
    ∃ lines last layout, scan (withoutMark source.toList) = some (lines, last) ∧
      lines.foldlM (Layout.step { newline := newlineOf (withoutMark source.toList) }) ({} : Layout) = some layout ∧
      m.tokens = openTokens layout.inner layout.outer := by
  obtain ⟨out, items, hout, -, hitems, hbody, -, -⟩ := parse?_eq_some h
  have htokens : m.tokens = rowsTokens out.rows := by
    have hall := assemble_tokens hbody (readRows_writes m.style out.rows hitems "").1
    rwa [List.reverse_nil, List.flatMap_nil, List.nil_append, readRows_tokens out.rows hitems] at hall
  obtain ⟨⟨lines, last⟩, hscan, hout⟩ := Option.bind_eq_some_iff.mp hout
  obtain ⟨layout, hsteps, hclose⟩ := Option.bind_eq_some_iff.mp hout
  exact ⟨lines, last, layout, hscan, hsteps, htokens.trans (closeAll_tokens hclose)⟩

/-- The tokens of a parsed text stand in its lines, with blanks in front of the logical lines that are as many as their
indentation. -/
theorem parse?_stands (h : Module.parse? source = some m) (hscan : scan (withoutMark source.toList) = some (lines, last))
    (hblanks : List.Forall₂ SameBlanks (indentsOf (withoutMark source.toList) lines) blanks) :
    Standing [] m.tokens (textOf lines blanks last) := by
  obtain ⟨out, items, hout, -⟩ := parse?_eq_some h
  obtain ⟨lines₁, last₁, hscan₁, hindents, -⟩ := outline_stretches hout
  rw [hscan] at hscan₁
  cases hscan₁
  obtain ⟨lines₂, last₂, layout, hscan₂, hsteps, htokens⟩ := parse?_tokens h
  rw [hscan] at hscan₂
  cases hscan₂
  obtain ⟨hspaced, hended⟩ := scanLines_spaced hscan (by simp)
  have hisBlank : ∀ b ∈ blanks, ∀ c ∈ b, Text.isBlank c = true := by
    intro b hb
    obtain ⟨i, -, -, hb, -⟩ := exists_partner hblanks.flip hb
    exact hb
  obtain ⟨ps, hps, hflows, -⟩ := scanLines_flows hscan (hindents.length_eq.trans hblanks.length_eq) hisBlank
  rw [List.reverse_nil, List.map_nil, List.nil_append] at hps
  rw [← hps] at hflows
  obtain ⟨new, hnew, hstands⟩ := Layout.stands_steps hsteps hspaced hended hblanks rfl ⟨.nil _, hflows⟩
  rw [htokens, hnew, textOf_eq]
  exact hstands _

/-- The indentations of the first lines of a parsed text are blanks that those lines start with. -/
theorem parse?_writtenWith {front back : List LogicalLine} (h : Module.parse? source = some m)
    (hscan : scan (withoutMark source.toList) = some (front ++ back, last)) :
    ∃ indents more, indentsOf (withoutMark source.toList) (front ++ back) = indents ++ more ∧
      List.Forall₂ (LogicalLine.WrittenWith (MarginOf front)) front indents := by
  obtain ⟨out, items, hout, -⟩ := parse?_eq_some h
  obtain ⟨⟨lines, last'⟩, hscan', hout⟩ := Option.bind_eq_some_iff.mp hout
  rw [hscan] at hscan'
  cases hscan'
  obtain ⟨layout, hsteps, -⟩ := Option.bind_eq_some_iff.mp hout
  rw [List.foldlM_append] at hsteps
  obtain ⟨next, hfront, -⟩ := Option.bind_eq_some_iff.mp hsteps
  have hraw : ∀ l ∈ front, ∀ t ∈ l.tokens, t.Raw := fun l hl =>
    scanLines_raw hscan l (List.mem_append_left _ hl)
  have hseen : ∀ l ∈ front, ∀ blank, l.margin = some blank → MarginOf front blank :=
    fun l hl blank hblank => .inr ⟨l, hl, hblank⟩
  obtain ⟨-, hwritten, -⟩ := Layout.stretches_steps hfront hraw hseen ⟨.inl rfl, rfl, rfl⟩
  exact ⟨_, _, Layout.indents_append hfront, hwritten⟩

/-- The indentations of a parsed text are blanks. -/
theorem parse?_indentsOf_isBlank (h : Module.parse? source = some m)
    (hscan : scan (withoutMark source.toList) = some (lines, last)) :
    ∀ i ∈ indentsOf (withoutMark source.toList) lines, SameBlanks i i := by
  obtain ⟨out, items, hout, -⟩ := parse?_eq_some h
  obtain ⟨lines₁, last₁, hscan₁, hindents, -⟩ := outline_stretches hout
  rw [hscan] at hscan₁
  cases hscan₁
  obtain ⟨hspaced, -⟩ := scanLines_spaced hscan (by simp)
  intro i hi
  obtain ⟨l, -, hseen, -⟩ := exists_partner (List.Forall₂.flip hindents) hi
  have hblank := hseen.isBlank hspaced
  rw [String.toList_ofList] at hblank
  exact ⟨hblank, hblank, rfl⟩

/-- The tokens of a module stand in the text that it renders to.  A carriage return at the very end is not
rendered. -/
theorem parse?_stands_render (h : Module.parse? source = some m) :
    Standing [] m.tokens (m.render.toList ++ finalReturn (withoutMark source.toList)) := by
  obtain ⟨lines, last, margins, hre⟩ := parse?_reindents_indentsOf h
  rw [hre.written]
  exact parse?_stands h hre.scanned (List.forall₂_same.mpr (parse?_indentsOf_isBlank h hre.scanned))

end

/-! ## Texts that keep their places -/

/-- Whether a logical line starts behind blanks without a backslash or a form feed. -/
def LogicalLine.isFlush (l : LogicalLine) : Bool :=
  l.margin.any fun blank => !blank.toList.contains '\x0c'

/-- The text of a logical line with its blanks, if these hold no backslash. -/
def LogicalLine.chars (l : LogicalLine) : List Char := (l.pieces (l.margin.getD "").toList).flatten

/-- The logical lines of a text up to the first one that starts behind a backslash or a form feed. -/
def flushPart (cs : List Char) : List Char :=
  (scan cs).elim [] fun r => (r.1.takeWhile LogicalLine.isFlush).flatMap LogicalLine.chars

/-- Whether no logical line of a text starts behind a backslash or a form feed. -/
def isFlush (cs : List Char) : Bool :=
  (scan cs).any fun r => r.1.all LogicalLine.isFlush

theorem LogicalLine.margin_of_isFlush {l : LogicalLine} (h : l.isFlush = true) :
    ∃ blank, l.margin = some blank ∧ '\x0c' ∉ blank.toList := by
  simpa [LogicalLine.isFlush, Option.any_eq_true] using h

/-- Without form feeds, the narrow width counts the blanks. -/
theorem Width.narrow_of {cs : List Char} (h : '\x0c' ∉ cs) : (Width.of (String.ofList cs)).narrow = cs.length := by
  have hfold : ∀ (cs : List Char) (w : Width), '\x0c' ∉ cs → (cs.foldl Width.next w).narrow = w.narrow + cs.length := by
    intro cs
    induction cs with
    | nil =>
      intro w _
      rfl
    | cons c cs ih =>
      intro w h
      obtain ⟨hc, hcs⟩ := not_or.mp (mt List.mem_cons.mpr h)
      have hnext : (w.next c).narrow = w.narrow + 1 := by
        unfold Width.next
        by_cases htab : c = '\t'
        · rw [if_pos htab]
        · rw [if_neg htab, if_neg (Ne.symm hc)]
      rw [List.foldl_cons, ih _ hcs, hnext, List.length_cons]
      omega
  rw [Width.of, String.toList_ofList, hfold cs {} h]
  exact Nat.zero_add _

/-- The indentation of a line that is flush is as long as its margin, if the lines that it may be taken from are flush
as well. -/
theorem sameBlanks_of_flush {lines ls : List LogicalLine} {indents margins : List (List Char)}
    (hspaced : ∀ l ∈ lines, l.Spaced) (hflush : ∀ l ∈ lines, l.isFlush = true) (hls : ∀ l ∈ ls, l ∈ lines)
    (hindents : List.Forall₂ (LogicalLine.WrittenWith (MarginOf lines)) ls indents)
    (hmargins : List.Forall₂ LogicalLine.ReadWith ls margins) : List.Forall₂ SameBlanks indents margins := by
  have hfed : ∀ blank, MarginOf lines blank → '\x0c' ∉ blank.toList := by
    rintro blank (rfl | ⟨l, hl, hmargin⟩)
    · simp
    · obtain ⟨blank', hblank', hfeed⟩ := LogicalLine.margin_of_isFlush (hflush l hl)
      rw [hmargin] at hblank'
      cases hblank'
      exact hfeed
  induction hindents generalizing margins with
  | nil =>
    cases hmargins
    exact .nil
  | @cons l indent ls indents hwritten _ ih =>
    obtain ⟨hl, hls⟩ := List.forall_mem_cons.mp hls
    cases hmargins with
    | @cons _ margin _ margins hread hmargins =>
      refine .cons ?_ (ih hls hmargins)
      obtain ⟨blank, hblank, hfeed⟩ := LogicalLine.margin_of_isFlush (hflush l hl)
      obtain rfl := hread.eq_of_margin hblank
      have hindent := hwritten.1.isBlank hspaced
      have hindentFeed := hfed _ hwritten.1
      have hmargin := (hspaced l hl).margin _ hblank
      have hwidth := congrArg Width.narrow (hwritten.2 _ hblank)
      rw [String.toList_ofList] at hfeed hindent hindentFeed hmargin
      rw [Width.narrow_of hindentFeed, Width.narrow_of hfeed] at hwidth
      exact ⟨hindent, hmargin, hwidth⟩

/-- Lines that are flush are read with the blanks in front of them. -/
theorem flatten_piecesOf_flush {lines : List LogicalLine} {margins : List (List Char)}
    (hflush : ∀ l ∈ lines, l.isFlush = true) (hmargins : List.Forall₂ LogicalLine.ReadWith lines margins) :
    (piecesOf lines margins).flatten = lines.flatMap LogicalLine.chars := by
  induction hmargins with
  | nil => rfl
  | @cons l margin lines margins hread _ ih =>
    obtain ⟨hl, hlines⟩ := List.forall_mem_cons.mp hflush
    obtain ⟨blank, hblank, -⟩ := LogicalLine.margin_of_isFlush hl
    have hchars : l.chars = (l.pieces margin).flatten := by
      rw [LogicalLine.chars, hblank, hread.eq_of_margin hblank, Option.getD_some, String.toList_ofList]
    rw [piecesOf_cons, List.flatten_append, ih hlines, List.flatMap_cons, hchars]

/-- The lines of a text up to some place start the text, whatever blanks are in front of the others. -/
theorem textOf_append {front back : List LogicalLine} {margins blanks : List (List Char)} {last : List Line}
    (hflush : ∀ l ∈ front, l.isFlush = true) (hmargins : List.Forall₂ LogicalLine.ReadWith front margins) :
    textOf (front ++ back) (margins ++ blanks) last = front.flatMap LogicalLine.chars ++ textOf back blanks last := by
  have hpieces : piecesOf (front ++ back) (margins ++ blanks) = piecesOf front margins ++ piecesOf back blanks := by
    rw [piecesOf, List.zipWith_append hmargins.length_eq, List.flatten_append]
    rfl
  rw [textOf_eq, textOf_eq, hpieces, List.flatten_append, flatten_piecesOf_flush hflush hmargins, List.append_assoc]

theorem forall₂_append {α β : Type} {R : α → β → Prop} {xs ys : List α} {zs : List β}
    (h : List.Forall₂ R (xs ++ ys) zs) :
    ∃ us vs, zs = us ++ vs ∧ List.Forall₂ R xs us ∧ List.Forall₂ R ys vs := by
  induction xs generalizing zs with
  | nil => exact ⟨[], zs, rfl, .nil, h⟩
  | cons x xs ih =>
    cases h with
    | cons hx h =>
      obtain ⟨us, vs, rfl, hus, hvs⟩ := ih h
      exact ⟨_ :: us, vs, rfl, .cons hx hus, hvs⟩

/-- The tokens of a module stand in a text that starts as the one it was read from does, up to the first logical line
that starts behind a backslash or a form feed.  If there is none, it is that text. -/
theorem parse?_stands_source {source : String} {m : Module} (h : Module.parse? source = some m) :
    flushPart (withoutMark source.toList) <+: withoutMark source.toList ∧
      ∃ rest, Standing [] m.tokens (flushPart (withoutMark source.toList) ++ rest) ∧
        (isFlush (withoutMark source.toList) = true →
          flushPart (withoutMark source.toList) ++ rest = withoutMark source.toList) := by
  obtain ⟨lines, last, margins, hre⟩ := parse?_reindents_indentsOf h
  obtain ⟨hspaced, -⟩ := scanLines_spaced hre.scanned (by simp)
  have hpart : flushPart (withoutMark source.toList) =
      (lines.takeWhile LogicalLine.isFlush).flatMap LogicalLine.chars := by
    rw [flushPart, hre.scanned]
    rfl
  have hflush : ∀ l ∈ lines.takeWhile LogicalLine.isFlush, l.isFlush = true := fun l hl => List.mem_takeWhile_imp hl
  have hsplit : lines = lines.takeWhile LogicalLine.isFlush ++ lines.dropWhile LogicalLine.isFlush :=
    List.takeWhile_append_dropWhile.symm
  have hnone : isFlush (withoutMark source.toList) = true → lines.dropWhile LogicalLine.isFlush = [] := by
    intro hall
    rw [isFlush, hre.scanned, Option.any_some, List.all_eq_true] at hall
    rw [List.dropWhile_eq_nil_iff]
    exact hall
  rw [hpart]
  generalize lines.takeWhile LogicalLine.isFlush = front at hflush hsplit ⊢
  generalize lines.dropWhile LogicalLine.isFlush = back at hsplit hnone
  subst hsplit
  obtain ⟨frontMargins, backMargins, rfl, hfront, -⟩ := forall₂_append hre.readWith
  obtain ⟨indents, more, hindents, hwritten⟩ := parse?_writtenWith h hre.scanned
  have hsame := sameBlanks_of_flush (fun l hl => hspaced l (List.mem_append_left _ hl)) hflush (fun _ hl => hl)
    hwritten hfront
  have hmore : ∀ i ∈ more, SameBlanks i i := by
    intro i hi
    apply parse?_indentsOf_isBlank h hre.scanned
    rw [hindents]
    exact List.mem_append_right _ hi
  have hblanks : List.Forall₂ SameBlanks (indentsOf (withoutMark source.toList) (front ++ back))
      (frontMargins ++ more) := by
    rw [hindents]
    exact List.rel_append hsame (List.forall₂_same.mpr hmore)
  have hstands := parse?_stands h hre.scanned hblanks
  rw [textOf_append hflush hfront] at hstands
  have hread := hre.read.trans (textOf_append hflush hfront)
  refine ⟨⟨textOf back backMargins last, hread.symm⟩, textOf back more last, hstands, fun hall => ?_⟩
  obtain rfl := hnone hall
  exact hread.symm

/-- The tokens of a module stand where their places say: in the text that it renders to, and in the text that it was
read from up to the first logical line that starts behind a backslash or a form feed. -/
def Module.StandsIn (source : String) (m : Module) : Prop :=
  Standing [] m.tokens (m.render.toList ++ finalReturn (withoutMark source.toList)) ∧
    flushPart (withoutMark source.toList) <+: withoutMark source.toList ∧
    ∃ rest, Standing [] m.tokens (flushPart (withoutMark source.toList) ++ rest) ∧
      (isFlush (withoutMark source.toList) = true →
        flushPart (withoutMark source.toList) ++ rest = withoutMark source.toList)

theorem parse?_standsIn {source : String} {m : Module} (h : Module.parse? source = some m) : m.StandsIn source :=
  ⟨parse?_stands_render h, parse?_stands_source h⟩

end Conformance.Source
