import Conformance.Source.Layout
import Conformance.Proofs.Source.LogicalLine

/-!
# Layout keeps the text

Laying out logical lines moves them into rows and divides the lines without tokens among the blocks, and makes
all of them relative to the indentation of their block.  Written out again, every line has the characters it was
read with, but for the blanks in front of its first token: these are the indentation of its block.

`outline_stretches` says so.  The step it rests on is that taking in a line puts its stretches behind those of the
blocks that are open (`Layout.stretches_step`).
-/

namespace Conformance.Source

/-! ## Settling -/

/-- The stretch with its line break made relative to a style. -/
def Stretch.settle (style : Style) (s : Stretch) : Stretch :=
  { s with newline := s.newline.settle style }

theorem toList_splitMargin (indent blank : String) :
    (if (splitMargin indent blank).1 then indent.toList else []) ++ (splitMargin indent blank).2.toList =
      blank.toList := by
  unfold splitMargin
  split
  · rename_i rest hrest
    simp [stripFront?_eq_some hrest]
  · rfl

theorem Line.stretch_settle (style : Style) (indent : String) (l : Line) :
    (l.settle style indent).stretch indent = (l.stretch "").settle style := by
  have hbody : ((l.settle style indent).stretch indent).body =
      (if (splitMargin indent l.blank).1 then indent.toList else []) ++ (splitMargin indent l.blank).2.toList ++
        l.comment.toList := rfl
  rw [toList_splitMargin] at hbody
  have hraw : (l.stretch "").body = l.blank.toList ++ l.comment.toList := by simp [Line.stretch]
  exact congrArg (Stretch.mk · (l.newline.settle style)) (hbody.trans hraw.symm)

theorem Newline.text_settle {style : Style} {s : String} (h : s ≠ "") :
    ((Newline.own s).settle style).text style = s := by
  rw [Newline.settle]
  split
  · rename_i hs
    exact (hs.resolve_left h).symm
  · rfl

theorem Break.charsOf_settle {b : Break} (h : b.Raw) (style : Style) (indent : String) :
    charsOf ((b.settle style indent).chunks style indent) = charsOf (b.chunks style "") := by
  obtain ⟨hmargin, s, hs, hnewline⟩ := h
  have hblank := toList_splitMargin indent b.blank
  have hchars : charsOf (if (splitMargin indent b.blank).1 then chunk indent else []) =
      if (splitMargin indent b.blank).1 then indent.toList else [] := by
    split <;> simp
  simp only [Break.settle, Break.chunks, hmargin, hnewline, charsOf_append, charsOf_chunk, hchars,
    Newline.text_settle hs, List.append_assoc, hblank]
  simp [Newline.text]

theorem Token.charsOf_settle {t : Token} (h : t.Raw) (style : Style) (indent : String) :
    charsOf ((t.settle style indent).chunks style indent) = charsOf (t.chunks style "") := by
  have hbreaks : ∀ bs : List Break, (∀ b ∈ bs, b.Raw) →
      charsOf ((bs.map (Break.settle style indent)).flatMap (Break.chunks style indent)) =
        charsOf (bs.flatMap (Break.chunks style "")) := by
    intro bs hbs
    induction bs with
    | nil => rfl
    | cons b bs ih =>
      obtain ⟨hb, hbs⟩ := List.forall_mem_cons.mp hbs
      simp only [List.map_cons, List.flatMap_cons, charsOf_append, Break.charsOf_settle hb, ih hbs]
  simp only [Token.settle, Trivia.settle, Token.chunks, Trivia.chunks, charsOf_append, hbreaks _ h]

theorem placeTokens_chunks (style : Style) (indent : String) (p : Position) (ts : List Token) :
    (placeTokens style indent p ts).1.flatMap (Token.chunks style indent) =
      ts.flatMap (Token.chunks style indent) := by
  induction ts generalizing p with
  | nil => rfl
  | cons t ts ih =>
    rw [placeTokens]
    simp only [List.flatMap_cons, ih]
    rfl

theorem charsOf_settled {ts : List Token} (h : ∀ t ∈ ts, t.Raw) (style : Style) (indent : String) (p : Position) :
    charsOf ((placeTokens style indent p (ts.map (Token.settle style indent))).1.flatMap
      (Token.chunks style indent)) = charsOf (ts.flatMap (Token.chunks style "")) := by
  rw [placeTokens_chunks]
  induction ts with
  | nil => rfl
  | cons t ts ih =>
    obtain ⟨ht, hts⟩ := List.forall_mem_cons.mp h
    simp only [List.map_cons, List.flatMap_cons, charsOf_append, Token.charsOf_settle ht, ih hts]

/-! ## Rows -/

mutual

/-- The pieces of text that a row is, in a block with the given indentation. -/
def Row.stretches (style : Style) (indent : String) : Row → List Stretch
  | .plain line => line.stretches style indent indent.toList
  | .opening line relative body footer =>
    line.stretches style indent indent.toList ++ rowsStretches style (indent ++ relative) body ++
      footer.map (Line.stretch (indent ++ relative))

/-- The pieces of text that some rows are. -/
def rowsStretches (style : Style) (indent : String) : List Row → List Stretch
  | [] => []
  | row :: rows => row.stretches style indent ++ rowsStretches style indent rows

end

theorem rowsStretches_append (style : Style) (indent : String) (xs ys : List Row) :
    rowsStretches style indent (xs ++ ys) = rowsStretches style indent xs ++ rowsStretches style indent ys := by
  induction xs with
  | nil => rfl
  | cons x xs ih => simp only [List.cons_append, rowsStretches, ih, List.append_assoc]

/-! ## Open blocks -/

theorem Width.eq_of {a b : Width} (hcolumn : a.column = b.column) (hnarrow : a.narrow = b.narrow) : a = b := by
  cases a
  cases b
  cases hcolumn
  cases hnarrow
  rfl

def OpenBlock.stretches (style : Style) (b : OpenBlock) : List Stretch :=
  rowsStretches style b.indent b.rows.reverse

/-- The text of the blocks that are open. -/
def openStretches (style : Style) : OpenBlock → List OpenBlock → List Stretch
  | inner, [] => inner.stretches style
  | inner, outer :: blocks => openStretches style outer blocks ++ inner.stretches style

/-- Each block is indented under the one around it, by an indentation that was seen and measured. -/
def Nested (Seen : String → Prop) : OpenBlock → List OpenBlock → Prop
  | inner, [] => Seen inner.indent ∧ inner.width = Width.of inner.indent ∧ inner.indent = ""
  | inner, outer :: blocks => Seen inner.indent ∧ inner.width = Width.of inner.indent ∧
      inner.indent = outer.indent ++ inner.relative ∧ Nested Seen outer blocks

theorem splitFooter_append (indent : String) (lines : List Line) :
    (splitFooter indent lines).1 ++ (splitFooter indent lines).2 = lines := by
  have hsplit := congrArg List.reverse
    (@List.takeWhile_append_dropWhile Line (fun l => !l.under indent) lines.reverse)
  rw [List.reverse_append, List.reverse_reverse] at hsplit
  unfold splitFooter
  dsimp only
  generalize (lines.reverse.takeWhile fun l => !l.under indent).reverse = rest at hsplit ⊢
  generalize (lines.reverse.dropWhile fun l => !l.under indent).reverse = front at hsplit
  rw [← hsplit, List.length_append, Nat.add_sub_cancel, List.take_left]

/-- The pieces of text that lines are which were read with all their blanks. -/
def readLines (style : Style) (lines : List Line) : List Stretch :=
  (lines.map (Line.stretch "")).map (Stretch.settle style)

theorem readLines_append (style : Style) (xs ys : List Line) :
    readLines style (xs ++ ys) = readLines style xs ++ readLines style ys := by
  simp [readLines]

/-- Lines that were read, settled in a block, are the same lines. -/
theorem stretches_settle (style : Style) (indent : String) (lines : List Line) :
    (lines.map (Line.settle style indent)).map (Line.stretch indent) = readLines style lines := by
  simp only [readLines, List.map_map]
  exact List.map_congr_left fun l _ => l.stretch_settle style indent

theorem Nested.congr {Seen : String → Prop} {b b' : OpenBlock} {blocks : List OpenBlock} (h : Nested Seen b blocks)
    (hindent : b'.indent = b.indent) (hrelative : b'.relative = b.relative) (hwidth : b'.width = b.width) :
    Nested Seen b' blocks := by
  cases blocks with
  | nil =>
    obtain ⟨hseen, hmeasured, houter⟩ := h
    exact ⟨hindent ▸ hseen, by rw [hwidth, hindent, hmeasured], hindent.trans houter⟩
  | cons o os =>
    obtain ⟨hseen, hmeasured, hinner, houter⟩ := h
    exact ⟨hindent ▸ hseen, by rw [hwidth, hindent, hmeasured], by rw [hindent, hrelative, hinner], houter⟩

theorem Nested.seen {Seen : String → Prop} {b : OpenBlock} {blocks : List OpenBlock} (h : Nested Seen b blocks) :
    Seen b.indent ∧ b.width = Width.of b.indent := by
  cases blocks with
  | nil => exact ⟨h.1, h.2.1⟩
  | cons o os => exact ⟨h.1, h.2.1⟩

/-- What is put behind the rows of a block is put behind the text of the blocks that are open. -/
theorem openStretches_append {style : Style} {b b' : OpenBlock} {more : List Stretch} (blocks : List OpenBlock)
    (h : b'.stretches style = b.stretches style ++ more) :
    openStretches style b' blocks = openStretches style b blocks ++ more := by
  cases blocks with
  | nil => exact h
  | cons o os => simp only [openStretches, h, List.append_assoc]

section
variable {style : Style} {Seen : String → Prop}

/-- Ending a block puts it and the lines at its foot behind the blocks around it. -/
theorem OpenBlock.stretches_attach {outer inner outer' : OpenBlock} {blocks : List OpenBlock}
    {footer rest lead : List Line}
    (h : outer.attach inner (footer.map (Line.settle style inner.indent)) = some outer')
    (hlead : footer ++ rest = lead) (hnested : Nested Seen inner (outer :: blocks)) :
    Nested Seen outer' blocks ∧ openStretches style outer' blocks ++ readLines style rest =
      openStretches style inner (outer :: blocks) ++ readLines style lead := by
  obtain ⟨_, _, hindent, houter⟩ := hnested
  unfold OpenBlock.attach at h
  split at h
  · rename_i line rows hrows
    cases h
    refine ⟨houter.congr rfl rfl rfl, ?_⟩
    have hrow : ∀ foot, OpenBlock.stretches style
        { outer with rows := .cons (.opening line inner.relative inner.rows.reverse foot) rows } =
        outer.stretches style ++ (inner.stretches style ++ foot.map (Line.stretch inner.indent)) := by
      intro foot
      simp only [OpenBlock.stretches, hrows, List.reverse_cons, rowsStretches_append, rowsStretches,
        Row.stretches, ← hindent, List.append_nil, List.append_assoc]
    rw [openStretches_append blocks (hrow _), stretches_settle, ← hlead, readLines_append, openStretches]
    simp only [List.append_assoc]
  · cases h

/-- Ending blocks moves lines from the lead of the next line to the feet of the blocks and nothing else. -/
theorem closeBlocks_stretches {column : Nat} {inner inner' : OpenBlock} {outer outer' : List OpenBlock}
    {lead lead' : List Line} (h : closeBlocks style column inner outer lead = some (inner', outer', lead'))
    (hnested : Nested Seen inner outer) :
    Nested Seen inner' outer' ∧ openStretches style inner' outer' ++ readLines style lead' =
      openStretches style inner outer ++ readLines style lead := by
  induction outer generalizing inner lead with
  | nil =>
    cases h
    exact ⟨hnested, rfl⟩
  | cons o os ih =>
    rw [closeBlocks] at h
    split at h
    · obtain ⟨o', hattach, h⟩ := Option.bind_eq_some_iff.mp h
      obtain ⟨houter, hfoot⟩ := OpenBlock.stretches_attach hattach (splitFooter_append inner.indent lead) hnested
      obtain ⟨hnested', htext⟩ := ih h houter
      exact ⟨hnested', htext.trans hfoot⟩
    · cases h
      exact ⟨hnested, rfl⟩

theorem closeAll_stretches {inner : OpenBlock} {outer : List OpenBlock} {lead : List Line} {out : Outline}
    (h : closeAll style inner outer lead = some out) (hnested : Nested Seen inner outer) :
    rowsStretches style "" out.rows ++ out.footer.map (Line.stretch "") =
      openStretches style inner outer ++ readLines style lead := by
  induction outer generalizing inner lead with
  | nil =>
    cases h
    rw [openStretches, OpenBlock.stretches, hnested.2.2, stretches_settle]
  | cons o os ih =>
    rw [closeAll] at h
    obtain ⟨o', hattach, h⟩ := Option.bind_eq_some_iff.mp h
    obtain ⟨houter, hfoot⟩ := OpenBlock.stretches_attach hattach (splitFooter_append inner.indent lead) hnested
    exact (ih h houter).trans hfoot

/-! ## Taking in a line -/

/-- A line put into a block is written with the indentation of the block. -/
theorem Layout.stretches_push {layout : Layout} (lead : List Line) {l : LogicalLine}
    (hraw : ∀ t ∈ l.tokens, t.Raw) (hnested : Nested Seen layout.inner layout.outer) :
    Nested Seen (layout.push style lead l).inner (layout.push style lead l).outer ∧
      openStretches style (layout.push style lead l).inner (layout.push style lead l).outer =
        openStretches style layout.inner layout.outer ++
          (({ l with lead }).stretches style "" layout.inner.indent.toList).map (Stretch.settle style) := by
  refine ⟨hnested.congr rfl rfl rfl, openStretches_append _ ?_⟩
  simp only [OpenBlock.stretches, Layout.push, List.reverse_cons, rowsStretches_append, rowsStretches,
    Row.stretches, LogicalLine.stretches, List.append_nil, List.map_append, stretches_settle,
    charsOf_settled hraw]
  rfl

/-- The blanks a logical line is written with: an indentation that was seen, as wide as its margin. -/
def LogicalLine.WrittenWith (Seen : String → Prop) (l : LogicalLine) (indent : List Char) : Prop :=
  Seen (String.ofList indent) ∧ ∀ blank, l.margin = some blank → Width.of (String.ofList indent) = Width.of blank

/-- Taking in a line puts its text behind that of the blocks that are open, with the indentation of the block that the
line ends up in. -/
theorem Layout.stretches_step {layout layout' : Layout} {l : LogicalLine} (h : layout.step style l = some layout')
    (hraw : ∀ t ∈ l.tokens, t.Raw) (hseen : ∀ blank, l.margin = some blank → Seen blank)
    (hnested : Nested Seen layout.inner layout.outer) :
    Nested Seen layout'.inner layout'.outer ∧ l.WrittenWith Seen layout'.inner.indent.toList ∧
      openStretches style layout'.inner layout'.outer = openStretches style layout.inner layout.outer ++
        (l.stretches style "" layout'.inner.indent.toList).map (Stretch.settle style) := by
  unfold Layout.step at h
  split at h
  · rename_i hmargin
    cases h
    obtain ⟨hnested', htext⟩ := Layout.stretches_push l.lead hraw hnested
    refine ⟨hnested', ⟨?_, ?_⟩, htext⟩
    · rw [String.ofList_toList]
      exact hnested.seen.1
    · rw [hmargin]
      simp
  · rename_i blank hmargin
    obtain ⟨⟨inner, outer, lead⟩, hclose, h⟩ := Option.bind_eq_some_iff.mp h
    obtain ⟨hclosed, hkept⟩ := closeBlocks_stretches hclose hnested
    have hmoved : ∀ m, openStretches style inner outer ++
        (({ l with lead }).stretches style "" m).map (Stretch.settle style) =
        openStretches style layout.inner layout.outer ++ (l.stretches style "" m).map (Stretch.settle style) := by
      intro m
      simp only [LogicalLine.stretches, List.map_append, ← List.append_assoc]
      exact congrArg (· ++ _) hkept
    dsimp only at h
    split at h
    · rename_i hcolumn
      split at h
      · -- the line goes on with the innermost block that is left
        rename_i hnarrow
        cases h
        have hlayout : Nested Seen ({ layout with inner, outer } : Layout).inner outer := hclosed
        obtain ⟨hnested', htext⟩ := Layout.stretches_push lead hraw hlayout
        refine ⟨hnested', ⟨?_, ?_⟩, htext.trans (hmoved _)⟩
        · rw [String.ofList_toList]
          exact hclosed.seen.1
        · intro b hb
          rw [hmargin] at hb
          cases hb
          rw [String.ofList_toList]
          refine hclosed.seen.2.symm.trans ?_
          exact (Width.eq_of hcolumn hnarrow).symm
      · cases h
    · split at h
      · -- the line starts a block
        obtain ⟨relative, hrelative, h⟩ := Option.bind_eq_some_iff.mp h
        cases h
        have hindent : blank = inner.indent ++ String.ofList relative := by
          rw [← String.toList_inj]
          simpa using stripFront?_eq_some hrelative
        have hblock : Nested Seen { indent := blank, relative := String.ofList relative, width := Width.of blank }
            (inner :: outer) := ⟨hseen blank hmargin, rfl, hindent, hclosed⟩
        have hopened : openStretches style
            { indent := blank, relative := String.ofList relative, width := Width.of blank } (inner :: outer) =
            openStretches style inner outer := List.append_nil _
        have hlayout : Nested Seen ({ layout with
            inner := { indent := blank, relative := String.ofList relative, width := Width.of blank }
            outer := inner :: outer } : Layout).inner (inner :: outer) := hblock
        obtain ⟨hnested', htext⟩ := Layout.stretches_push lead hraw hlayout
        refine ⟨hnested', ⟨?_, ?_⟩, htext.trans ((congrArg (· ++ _) hopened).trans (hmoved _))⟩
        · rw [String.ofList_toList]
          exact hseen blank hmargin
        · intro b hb
          rw [hmargin] at hb
          cases hb
          rw [String.ofList_toList]
          rfl
      · cases h

variable (style) in
/-- The indentations that logical lines are laid out with: each is that of the block its line ends up in. -/
def Layout.indents : Layout → List LogicalLine → List (List Char)
  | _, [] => []
  | layout, l :: lines =>
    match layout.step style l with
    | none => []
    | some next => next.inner.indent.toList :: next.indents lines

theorem Layout.indents_cons {layout next : Layout} {l : LogicalLine} (h : layout.step style l = some next)
    (lines : List LogicalLine) :
    layout.indents style (l :: lines) = next.inner.indent.toList :: next.indents style lines := by
  rw [Layout.indents, h]

theorem Layout.indents_append {lines more : List LogicalLine} {layout next : Layout}
    (h : lines.foldlM (Layout.step style) layout = some next) :
    layout.indents style (lines ++ more) = layout.indents style lines ++ next.indents style more := by
  induction lines generalizing layout with
  | nil =>
    cases h
    rfl
  | cons l lines ih =>
    obtain ⟨first, hstep, h⟩ := Option.bind_eq_some_iff.mp h
    rw [List.cons_append, Layout.indents_cons hstep, Layout.indents_cons hstep, ih h, List.cons_append]

/-- Taking in lines puts their text behind that of the blocks that are open, line by line. -/
theorem Layout.stretches_steps {lines : List LogicalLine} {layout layout' : Layout}
    (h : lines.foldlM (Layout.step style) layout = some layout')
    (hraw : ∀ l ∈ lines, ∀ t ∈ l.tokens, t.Raw) (hseen : ∀ l ∈ lines, ∀ blank, l.margin = some blank → Seen blank)
    (hnested : Nested Seen layout.inner layout.outer) :
    Nested Seen layout'.inner layout'.outer ∧
      List.Forall₂ (LogicalLine.WrittenWith Seen) lines (layout.indents style lines) ∧
      openStretches style layout'.inner layout'.outer = openStretches style layout.inner layout.outer ++
        (stretchesOf style lines (layout.indents style lines)).map (Stretch.settle style) := by
  induction lines generalizing layout with
  | nil =>
    cases h
    exact ⟨hnested, .nil, by simp [stretchesOf]⟩
  | cons l lines ih =>
    obtain ⟨next, hstep, h⟩ := Option.bind_eq_some_iff.mp h
    obtain ⟨hrawFirst, hrawRest⟩ := List.forall_mem_cons.mp hraw
    obtain ⟨hseenFirst, hseenRest⟩ := List.forall_mem_cons.mp hseen
    obtain ⟨hnext, hindent, hfirst⟩ := Layout.stretches_step hstep hrawFirst hseenFirst hnested
    obtain ⟨hlast, hindents, hrest⟩ := ih h hrawRest hseenRest hnext
    rw [Layout.indents_cons hstep]
    refine ⟨hlast, .cons hindent hindents, ?_⟩
    have hcons : ∀ indent indents, stretchesOf style (l :: lines) (indent :: indents) =
        l.stretches style "" indent ++ stretchesOf style lines indents := fun _ _ => rfl
    rw [hrest, hfirst, hcons, List.map_append, List.append_assoc]

end

/-- The blanks that logical lines were read with, and those of the outermost block. -/
def MarginOf (lines : List LogicalLine) (blank : String) : Prop :=
  blank = "" ∨ ∃ l ∈ lines, l.margin = some blank

/-- The rows of a text, written out, are its logical lines and the lines after them, in their order; each logical
line is written with an indentation as wide as the margin it was read with. -/
theorem outline_stretches {style : Style} {cs : List Char} {out : Outline} (h : outline style cs = some out) :
    ∃ lines last, scan cs = some (lines, last) ∧
      List.Forall₂ (LogicalLine.WrittenWith (MarginOf lines)) lines (({} : Layout).indents style lines) ∧
      rowsStretches style "" out.rows ++ out.footer.map (Line.stretch "") =
        (stretchesOf style lines (({} : Layout).indents style lines) ++ last.map (Line.stretch "")).map
          (Stretch.settle style) := by
  obtain ⟨⟨lines, last⟩, hscan, h⟩ := Option.bind_eq_some_iff.mp h
  obtain ⟨layout, hsteps, hclose⟩ := Option.bind_eq_some_iff.mp h
  have hstart : Nested (MarginOf lines) ({} : Layout).inner ({} : Layout).outer := ⟨.inl rfl, rfl, rfl⟩
  have hseen : ∀ l ∈ lines, ∀ blank, l.margin = some blank → MarginOf lines blank :=
    fun l hl blank hblank => .inr ⟨l, hl, hblank⟩
  obtain ⟨hnested, hindents, htext⟩ := Layout.stretches_steps hsteps (scanLines_raw hscan) hseen hstart
  refine ⟨lines, last, hscan, hindents, ?_⟩
  rw [closeAll_stretches hclose hnested, htext, List.map_append]
  rfl

end Conformance.Source
