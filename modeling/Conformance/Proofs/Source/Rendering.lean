import Conformance.Source.Grammar.Lossless
import Conformance.Source.Parse
import Conformance.Proofs.Source.Layout

/-!
# Rendering gives a text back

Reading the rows of a text and putting them together keeps every line: the statements render to the lines they were
read from (`assemble_writes`, `readRows_writes`).  With what is known of the layout, a module that was parsed
renders to its text, but for the blanks in front of the first token of a logical line and for a carriage return at
the very end (`parse?_render`).
-/

namespace Conformance.Source

open SyntaxTree Grammar

/-! ## Chunks and stretches -/

/-- The chunks are those of the stretches: each line break is a chunk of its own. -/
inductive Writes (style : Style) : List String → List Stretch → Prop
  | nil : Writes style [] []
  | cons {body chunks : List String} {s : Stretch} {ss : List Stretch} : charsOf body = s.body →
      Writes style chunks ss → Writes style (body ++ s.newline.text style :: chunks) (s :: ss)

section
variable {style : Style}

theorem Writes.append {xs ys : List String} {ss ts : List Stretch} (h : Writes style xs ss)
    (h' : Writes style ys ts) : Writes style (xs ++ ys) (ss ++ ts) := by
  induction h with
  | nil => exact h'
  | cons hbody _ ih =>
    rw [List.append_assoc]
    exact .cons hbody ih

theorem Writes.single {body : List String} {s : Stretch} (h : charsOf body = s.body) :
    Writes style (body ++ [s.newline.text style]) [s] :=
  .cons h .nil

theorem Writes.chars {chunks : List String} {ss : List Stretch} (h : Writes style chunks ss) :
    charsOf chunks = ss.flatMap (Stretch.chars style) := by
  induction h with
  | nil => rfl
  | cons hbody _ ih =>
    simp only [charsOf_append, charsOf_cons, List.flatMap_cons, Stretch.chars, hbody, ih, List.append_assoc]

theorem Writes.of_append {chunks : List String} {ss ts : List Stretch} (h : Writes style chunks (ss ++ ts)) :
    ∃ xs ys, chunks = xs ++ ys ∧ Writes style xs ss ∧ Writes style ys ts := by
  induction ss generalizing chunks with
  | nil => exact ⟨[], chunks, rfl, .nil, h⟩
  | cons s ss ih =>
    cases h with
    | cons hbody hrest =>
      obtain ⟨xs, ys, rfl, hxs, hys⟩ := ih hrest
      exact ⟨_, ys, by simp, .cons hbody hxs, hys⟩

/-- Without its last chunk a text lacks its last line break. -/
theorem Writes.chars_dropLast {chunks : List String} {ss : List Stretch} {s : Stretch}
    (h : Writes style chunks (ss ++ [s])) :
    charsOf chunks.dropLast = ss.flatMap (Stretch.chars style) ++ s.body := by
  obtain ⟨xs, ys, rfl, hxs, hys⟩ := h.of_append
  cases hys with
  | cons hbody hnil =>
    cases hnil
    rw [← List.append_assoc, List.dropLast_concat, charsOf_append, hxs.chars, hbody]

variable (style)

theorem writes_lines (indent : String) (lines : List Line) :
    Writes style (linesChunks style indent lines) (lines.map (Line.stretch indent)) := by
  induction lines with
  | nil => exact .nil
  | cons l lines ih =>
    have hbody : charsOf ((if l.margin then chunk indent else []) ++ chunk l.blank ++ chunk l.comment) =
        (l.stretch indent).body := by
      simp only [charsOf_append, charsOf_chunk, Line.stretch]
      split <;> simp
    exact (Writes.single hbody).append ih

/-- A logical line is written as its lead, its indentation and its tokens. -/
theorem writes_line (indent : String) (l : LogicalLine) :
    Writes style (linesChunks style indent l.lead ++ chunk indent ++ l.tokens.flatMap (Token.chunks style indent) ++
      l.stop.chunks style) (l.stretches style indent indent.toList) := by
  have hbody : charsOf (chunk indent ++ l.tokens.flatMap (Token.chunks style indent) ++ chunk l.stop.comment) =
      indent.toList ++ charsOf (l.tokens.flatMap (Token.chunks style indent)) ++ l.stop.comment.toList := by
    simp only [charsOf_append, charsOf_chunk]
  have hcode : Writes style _ [⟨_, l.stop.newline⟩] := Writes.single hbody
  have hall := (writes_lines style indent l.lead).append hcode
  simpa only [LogicalLine.stretches, LineEnd.chunks, List.append_assoc] using hall

/-! ## Rows -/

theorem treesChunks_eq (indent : String) (trees : List SyntaxTree) :
    treesChunks style indent trees = (leavesAll trees).flatMap (Token.chunks style indent) := by
  induction trees with
  | nil => rfl
  | cons t ts ih =>
    rw [leavesAll, List.flatMap_append, ← ih]
    rfl

/-- The trees of a line render as its tokens. -/
theorem readLine?_chunks {s : Nonterminal} {tokens : List Token} {trees : List SyntaxTree}
    (h : readLine? s tokens = some trees) (indent : String) :
    treesChunks style indent trees = tokens.flatMap (Token.chunks style indent) := by
  unfold readLine? at h
  split at h
  · rename_i hrun
    cases h
    rw [treesChunks_eq, ← Peg.run_lossless hrun, List.append_nil]
  · cases h

/-- What stands before a definition that was just read. -/
def Statement.Undecorated : Statement → Prop
  | .simple .. => True
  | .clause .. => True
  | .ofClass prelude _ _ => prelude = { lead := prelude.lead }
  | .ofFunction prelude _ _ => prelude = { lead := prelude.lead }

def Item.Undecorated : Item → Prop
  | .decorator _ => True
  | .statement _ s => s.Undecorated

def Item.chunks (style : Style) (indent : String) : Item → List String
  | .decorator d => d.chunks style indent
  | .statement _ s => s.chunks style indent

theorem compound_chunks {lead : List Line} {head : SyntaxTree} {body : Suite} {item : Item}
    (h : Item.compound lead head body = some item) (indent : String) :
    item.Undecorated ∧ item.chunks style indent =
      linesChunks style indent lead ++ chunk indent ++ head.chunks style indent ++ body.chunks style indent := by
  unfold Item.compound at h
  split at h
  · cases h
    refine ⟨rfl, ?_⟩
    simp [Item.chunks, Statement.chunks, Prelude.chunks, ClassHead.chunks, linesChunks, treesChunks_eq,
      SyntaxTree.chunks, leaves, leavesAll]
  · cases h
    refine ⟨rfl, ?_⟩
    simp [Item.chunks, Statement.chunks, Prelude.chunks, FunctionHead.chunks, linesChunks, treesChunks_eq,
      SyntaxTree.chunks, leaves, leavesAll]
  · cases h
    refine ⟨rfl, ?_⟩
    simp [Item.chunks, Statement.chunks, Prelude.chunks, FunctionHead.chunks, linesChunks, treesChunks_eq,
      SyntaxTree.chunks, leaves, leavesAll]
  · cases h
  · cases h
  · cases h
    exact ⟨trivial, rfl⟩
  · cases h

/-- Putting decorators on a definition that was just read keeps the lines of both. -/
theorem Prelude.decorate_chunks (decorators : List Decorator) (lead : List Line) (indent : String) :
    (Prelude.decorate decorators { lead }).chunks style indent =
      decorators.flatMap (Decorator.chunks style indent) ++ (Prelude.chunks style indent { lead }) := by
  cases decorators with
  | nil => rfl
  | cons first more => simp [Prelude.decorate, Prelude.chunks, Decorator.chunks, linesChunks]

/-- Putting the rows of a block together keeps them. -/
theorem assemble_chunks {items : List Item} {a : Awaiting} {waiting : List Decorator} {ss : List Statement}
    (h : assemble a waiting items = some ss) (hitems : ∀ i ∈ items, i.Undecorated) (indent : String) :
    statementsChunks style indent ss =
      waiting.reverse.flatMap (Decorator.chunks style indent) ++ items.flatMap (Item.chunks style indent) := by
  induction items generalizing a waiting ss with
  | nil =>
    rw [assemble] at h
    split at h
    · cases h
    · rename_i hempty
      cases h
      simp at hempty
      simp [hempty.2, statementsChunks]
  | cons item items ih =>
    obtain ⟨hitem, hrest⟩ := List.forall_mem_cons.mp hitems
    cases item with
    | decorator d =>
      rw [assemble] at h
      split at h
      · cases h
      · rw [ih h hrest]
        simp [Item.chunks]
    | statement k s =>
      rw [assemble] at h
      obtain ⟨next, _, h⟩ := Option.bind_eq_some_iff.mp h
      obtain ⟨more, hmore, h⟩ := Option.bind_eq_some_iff.mp h
      have hall := ih hmore hrest
      split at h
      · cases h
        simp [statementsChunks, hall, Item.chunks]
      · rename_i prelude head body _ _ _
        cases h
        rw [show prelude = { lead := prelude.lead } from hitem]
        simp [statementsChunks, Statement.chunks, hall, Item.chunks, Prelude.decorate_chunks]
      · rename_i prelude head body _ _ _
        cases h
        rw [show prelude = { lead := prelude.lead } from hitem]
        simp [statementsChunks, Statement.chunks, hall, Item.chunks, Prelude.decorate_chunks]
      · cases h

mutual

/-- An item is written as the row it was read from. -/
theorem readRow_writes {cases : Bool} (row : Row) {item : Item} (h : readRow style cases row = some item)
    (indent : String) :
    item.Undecorated ∧ Writes style (item.chunks style indent) (row.stretches style indent) := by
  cases row with
  | plain line =>
    rw [readRow] at h
    obtain ⟨trees, htrees, h⟩ := Option.bind_eq_some_iff.mp h
    have hchunks := readLine?_chunks style htrees indent
    have hline := writes_line style indent line
    rw [← hchunks] at hline
    split at h
    · cases h
      refine ⟨trivial, ?_⟩
      simpa [Item.chunks, Decorator.chunks, Row.stretches, treesChunks, SyntaxTree.chunks, leaves, leavesAll]
        using hline
    · cases h
      refine ⟨trivial, ?_⟩
      simpa [Item.chunks, Statement.chunks, Row.stretches, treesChunks] using hline
    · obtain ⟨hfresh, hitem⟩ := compound_chunks style h indent
      refine ⟨hfresh, ?_⟩
      rw [hitem]
      simpa [Suite.chunks, Row.stretches, treesChunks] using hline
    · cases h
  | opening line relative body footer =>
    rw [readRow] at h
    obtain ⟨trees, htrees, h⟩ := Option.bind_eq_some_iff.mp h
    have hchunks := readLine?_chunks style htrees indent
    have hline := writes_line style indent line
    rw [← hchunks] at hline
    split at h
    · obtain ⟨items, hitems, h⟩ := Option.bind_eq_some_iff.mp h
      obtain ⟨statements, hstatements, h⟩ := Option.bind_eq_some_iff.mp h
      obtain ⟨hfresh, hitem⟩ := compound_chunks style h indent
      refine ⟨hfresh, ?_⟩
      obtain ⟨hundecorated, hbody⟩ := readRows_writes body hitems (indent ++ relative)
      have hblock := assemble_chunks style hstatements hundecorated (indent ++ relative)
      rw [List.reverse_nil, List.flatMap_nil, List.nil_append] at hblock
      have hown : (if relative = style.indent then none else some relative).getD style.indent = relative := by
        split
        · rename_i hrelative
          exact hrelative.symm
        · rfl
      have hall := (hline.append hbody).append (writes_lines style (indent ++ relative) footer)
      rw [hitem, Row.stretches, Suite.chunks, hown, hblock]
      simpa only [treesChunks, List.flatMap_cons, List.flatMap_nil, List.append_nil, List.append_assoc] using hall
    · cases h

/-- Items are written as the rows they were read from. -/
theorem readRows_writes {cases : Bool} (rows : List Row) {items : List Item}
    (h : readRows style cases rows = some items) (indent : String) :
    (∀ i ∈ items, i.Undecorated) ∧
      Writes style (items.flatMap (Item.chunks style indent)) (rowsStretches style indent rows) := by
  cases rows with
  | nil =>
    cases h
    exact ⟨by simp, .nil⟩
  | cons row rows =>
    rw [readRows] at h
    obtain ⟨item, hitem, h⟩ := Option.bind_eq_some_iff.mp h
    obtain ⟨more, hmore, h⟩ := Option.bind_eq_some_iff.mp h
    cases h
    obtain ⟨hfirst, hwrites⟩ := readRow_writes row hitem indent
    obtain ⟨hrest, hmoreWrites⟩ := readRows_writes rows hmore indent
    exact ⟨List.forall_mem_cons.mpr ⟨hfirst, hrest⟩, hwrites.append hmoreWrites⟩

end

end

/-! ## Whole texts -/

theorem Stretch.chars_settle {style : Style} {s : Stretch} {nl : String} (hs : s.newline = .own nl)
    (hnl : nl ∈ lineBreaks) : (s.settle style).chars style = s.chars {} := by
  simp only [Stretch.chars, Stretch.settle, hs, Newline.text_settle (ne_empty_of_mem_lineBreaks hnl)]
  rfl

/-- The carriage return that a text ends with, if it does. -/
def finalReturn (cs : List Char) : List Char :=
  if cs.getLast? = some '\r' then ['\r'] else []

/-- Stretches with the line breaks of a text that was read, written with the last line break taken back unless the
text ends with a line feed, are these stretches less a carriage return at the end. -/
theorem Reads.charsOf_render {style : Style} {chunks : List String} {cs : List Char} {read written : List Stretch}
    (hread : Reads cs read) (hsame : written.map Stretch.newline = read.map Stretch.newline)
    (hwrites : Writes style chunks (written.map (Stretch.settle style))) :
    charsOf (if cs.getLast? == some '\n' then chunks else chunks.dropLast) ++
      finalReturn cs = written.flatMap (Stretch.chars {}) := by
  unfold finalReturn
  rcases hread.exists_last with rfl | ⟨front₀, last₀, nl, rfl, hfront₀, hlast₀, hend⟩
  · obtain rfl : written = [] := by simpa using hsame
    have hnil : cs = [] := by simpa using (hread.chars {}).symm
    cases hwrites
    simp [hnil]
  · rw [List.map_append] at hsame
    obtain ⟨front, tail, rfl, hfrontSame, htailSame⟩ := List.map_eq_append_iff.mp hsame
    obtain ⟨last, rfl, hlastSame⟩ : ∃ last, tail = [last] ∧ last.newline = last₀.newline := by
      obtain ⟨last, rest, rfl, hlast, hrest⟩ := List.map_eq_cons_iff.mp htailSame
      exact ⟨last, by rw [List.map_eq_nil_iff.mp hrest], hlast⟩
    have hlast : last.newline = .own nl := hlastSame.trans hlast₀
    have hfront : (front.map (Stretch.settle style)).flatMap (Stretch.chars style) =
        front.flatMap (Stretch.chars {}) := by
      rw [List.flatMap_map]
      refine List.flatMap_congr fun s hs => ?_
      have hmem : s.newline ∈ front₀.map Stretch.newline := hfrontSame ▸ List.mem_map_of_mem hs
      obtain ⟨s₀, hs₀, heq⟩ := List.mem_map.mp hmem
      obtain ⟨t, ht, hnewline⟩ := hfront₀ s₀ hs₀
      exact Stretch.chars_settle (heq ▸ hnewline) ht
    rw [List.map_append, List.map_singleton] at hwrites
    have hall := hwrites.chars
    have hdrop := hwrites.chars_dropLast
    rw [List.flatMap_append, List.flatMap_cons, List.flatMap_nil, List.append_nil, hfront] at hall
    rw [hfront] at hdrop
    rw [List.flatMap_append, List.flatMap_cons, List.flatMap_nil, List.append_nil]
    rcases hend with ⟨rfl, hcalm⟩ | ⟨hnl, hgetLast⟩
    · -- the last line is not ended, and the break it was given is taken back
      have hfeed : cs.getLast? ≠ some '\n' := fun h => nomatch hcalm _ h
      have hreturn : cs.getLast? ≠ some '\r' := fun h => nomatch hcalm _ h
      rw [if_neg (by simpa using hfeed), if_neg hreturn, hdrop, List.append_nil]
      simp [Stretch.chars, Stretch.settle, hlast, Newline.text]
    · have hkept : (last.settle style).chars style = last.chars {} := Stretch.chars_settle hlast hnl
      rw [hkept] at hall
      rw [hgetLast]
      simp only [lineBreaks, List.mem_cons, List.not_mem_nil, or_false] at hnl
      rcases hnl with rfl | rfl | rfl
      · simpa using hall
      · simpa using hall
      · -- a carriage return counts as missing and is lost
        have hbody := congrArg (· ++ ['\r']) hdrop
        simpa [Stretch.chars, Stretch.settle, hlast, Newline.text] using hbody

mutual

/-- What is written of a row depends on the line break of a style and not on its indentation. -/
theorem Row.stretches_indent (a b newline indent : String) (row : Row) :
    row.stretches { indent := a, newline } indent = row.stretches { indent := b, newline } indent := by
  cases row with
  | plain line => rfl
  | opening line relative body footer =>
    rw [Row.stretches, Row.stretches, rowsStretches_indent a b newline (indent ++ relative) body]
    rfl

theorem rowsStretches_indent (a b newline indent : String) (rows : List Row) :
    rowsStretches { indent := a, newline } indent rows = rowsStretches { indent := b, newline } indent rows := by
  cases rows with
  | nil => rfl
  | cons row rows =>
    rw [rowsStretches, rowsStretches, Row.stretches_indent a b newline indent row,
      rowsStretches_indent a b newline indent rows]

end

/-- The white space of a token as it is read does not depend on a style. -/
theorem Token.charsOf_raw {t : Token} (h : t.Raw) (style : Style) :
    charsOf (t.chunks style "") = charsOf (t.chunks {} "") := by
  have hbreaks : t.after.breaks.flatMap (Break.chunks style "") = t.after.breaks.flatMap (Break.chunks {} "") := by
    refine List.flatMap_congr fun b hb => ?_
    obtain ⟨_, s, _, hnewline⟩ := h b hb
    simp only [Break.chunks, hnewline, Newline.text]
  simp only [Token.chunks, Trivia.chunks, hbreaks]

theorem stretchesOf_raw {lines : List LogicalLine} (h : ∀ l ∈ lines, ∀ t ∈ l.tokens, t.Raw) (style : Style)
    (blanks : List (List Char)) : stretchesOf style lines blanks = stretchesOf {} lines blanks := by
  have hline : ∀ l ∈ lines, ∀ m, l.stretches style "" m = l.stretches {} "" m := by
    intro l hl m
    have htokens : charsOf (l.tokens.flatMap (Token.chunks style "")) =
        charsOf (l.tokens.flatMap (Token.chunks {} "")) := by
      simp only [charsOf, List.flatMap_assoc]
      exact List.flatMap_congr fun t ht => Token.charsOf_raw (h l hl t ht) style
    simp only [LogicalLine.stretches, htokens]
  induction lines generalizing blanks with
  | nil => rfl
  | cons l lines ih =>
    cases blanks with
    | nil => rfl
    | cons m blanks =>
      obtain ⟨hfirst, hrest⟩ := List.forall_mem_cons.mp hline
      have htail := ih (List.forall_mem_cons.mp h).2 blanks hrest
      simp only [stretchesOf, List.zipWith_cons_cons, List.flatten_cons] at htail ⊢
      rw [hfirst, htail]

/-- The line breaks of a text do not depend on the blanks of its logical lines. -/
theorem stretchesOf_newlines (style : Style) {lines : List LogicalLine} {xs ys : List (List Char)}
    (hx : lines.length = xs.length) (hy : lines.length = ys.length) :
    (stretchesOf style lines xs).map Stretch.newline = (stretchesOf style lines ys).map Stretch.newline := by
  induction lines generalizing xs ys with
  | nil => rfl
  | cons l lines ih =>
    cases xs with
    | nil => cases hx
    | cons x xs =>
      cases ys with
      | nil => cases hy
      | cons y ys =>
        have htail := ih (Nat.succ.inj hx) (Nat.succ.inj hy)
        simp only [stretchesOf, List.zipWith_cons_cons, List.flatten_cons, List.map_append] at htail ⊢
        rw [htail]
        simp only [LogicalLine.stretches, List.map_append, List.map_cons, List.map_nil]

/-- The characters of a text without the byte order mark in front. -/
def withoutMark : List Char → List Char
  | '\uFEFF' :: cs => cs
  | cs => cs

/-- The text of logical lines, each with the given blanks in front of its first token, and of the lines after
them. -/
def textOf (lines : List LogicalLine) (blanks : List (List Char)) (last : List Line) : List Char :=
  (stretchesOf {} lines blanks ++ last.map (Line.stretch "")).flatMap (Stretch.chars {})

/-- A text is written again with other blanks in front of its logical lines.  The new ones were read somewhere in the
text, and they are as wide as the old ones unless a backslash stands among these.  A carriage return at the very end
is lost. -/
structure Reindents (cs out : List Char) (lines : List LogicalLine) (last : List Line)
    (margins indents : List (List Char)) : Prop where
  scanned : scan cs = some (lines, last)
  readWith : List.Forall₂ LogicalLine.ReadWith lines margins
  read : cs = textOf lines margins last
  written : out ++ finalReturn cs = textOf lines indents last
  seen : ∀ i ∈ indents, i = [] ∨ i ∈ margins
  width : List.Forall₂ (fun m i => '\\' ∉ m → Width.of (String.ofList i) = Width.of (String.ofList m)) margins indents

/-- Every item of the first of two lists that are related item by item has its partner in the second. -/
theorem exists_partner {α β : Type} {R : α → β → Prop} {xs : List α} {ys : List β} (h : List.Forall₂ R xs ys)
    {x : α} (hx : x ∈ xs) : ∃ y ∈ ys, R x y := by
  induction h with
  | nil => cases hx
  | cons hxy _ ih =>
    rcases List.mem_cons.mp hx with rfl | hx
    · exact ⟨_, List.mem_cons_self, hxy⟩
    · obtain ⟨y, hy, hR⟩ := ih hx
      exact ⟨y, List.mem_cons_of_mem _ hy, hR⟩

/-- A margin that was kept is the blanks its line was read with. -/
theorem LogicalLine.ReadWith.eq_of_margin {l : LogicalLine} {blank : List Char} {s : String} (h : l.ReadWith blank)
    (hs : l.margin = some s) : s = String.ofList blank := by
  unfold LogicalLine.ReadWith at h
  rw [hs] at h
  split at h
  · cases h
  · exact Option.some.inj h

/-- Blanks without a backslash are kept as the margin. -/
theorem LogicalLine.ReadWith.margin {l : LogicalLine} {blank : List Char} (h : l.ReadWith blank)
    (hblank : '\\' ∉ blank) : l.margin = some (String.ofList blank) := by
  unfold LogicalLine.ReadWith at h
  rw [h, if_neg (by simpa using hblank)]

/-- The stages of reading a text. -/
theorem parse?_eq_some {source : String} {m : Module} (h : Module.parse? source = some m) :
    ∃ out items, outline { newline := newlineOf (withoutMark source.toList) } (withoutMark source.toList) = some out ∧
      m.style = { newline := newlineOf (withoutMark source.toList), indent := (firstIndent? out.rows).getD "    " } ∧
      readRows m.style false out.rows = some items ∧ assemble .nothing [] items = some m.body ∧
      m.footer = out.footer ∧ m.ended = ((withoutMark source.toList).getLast? == some '\n') := by
  obtain ⟨out, hout, h⟩ := Option.bind_eq_some_iff.mp h
  obtain ⟨items, hitems, h⟩ := Option.bind_eq_some_iff.mp h
  obtain ⟨body, hbody, h⟩ := Option.bind_eq_some_iff.mp h
  cases h
  exact ⟨out, items, hout, rfl, hitems, hbody, rfl, rfl⟩

/-- The indentations that the logical lines of a text are written with. -/
def indentsOf (cs : List Char) (lines : List LogicalLine) : List (List Char) :=
  ({} : Layout).indents { newline := newlineOf cs } lines

/-- A module that was read renders to its text, with the indentations of its blocks in front of its logical lines. -/
theorem parse?_reindents_indentsOf {source : String} {m : Module} (h : Module.parse? source = some m) :
    ∃ lines last margins, Reindents (withoutMark source.toList) m.render.toList lines last margins
      (indentsOf (withoutMark source.toList) lines) := by
  obtain ⟨out, items, hout, hstyle, hitems, hbody, hfooter, hended⟩ := parse?_eq_some h
  generalize withoutMark source.toList = cs at hout hstyle hended ⊢
  obtain ⟨lines, last, hscan, hindents, hlaid⟩ := outline_stretches hout
  change List.Forall₂ _ lines (indentsOf cs lines) at hindents
  change _ = (stretchesOf _ lines (indentsOf cs lines) ++ _).map _ at hlaid
  obtain ⟨margins, hmargins, hreads⟩ := scan_reads {} hscan
  have hraw := scanLines_raw hscan
  rw [stretchesOf_raw hraw] at hlaid
  -- the chunks of the module are those of its rows
  obtain ⟨hundecorated, hrows⟩ := readRows_writes m.style out.rows hitems ""
  have hstatements := assemble_chunks m.style hbody hundecorated ""
  rw [List.reverse_nil, List.flatMap_nil, List.nil_append] at hstatements
  rw [← hstatements] at hrows
  have hwrites := hrows.append (writes_lines m.style "" m.footer)
  rw [hfooter, hstyle, rowsStretches_indent _ "    ", hlaid] at hwrites
  refine ⟨lines, last, margins, ⟨hscan, hmargins, (hreads.chars {}).symm, ?_, ?_, ?_⟩⟩
  · have hsame : (stretchesOf {} lines (indentsOf cs lines) ++ last.map (Line.stretch "")).map Stretch.newline =
        (stretchesOf {} lines margins ++ last.map (Line.stretch "")).map Stretch.newline := by
      rw [List.map_append, List.map_append, stretchesOf_newlines {} hindents.length_eq hmargins.length_eq]
    have hrender := hreads.charsOf_render hsame hwrites
    rw [Module.render, String.toList_join, hended, hfooter, hstyle]
    exact hrender
  · intro i hi
    obtain ⟨l, _, hseen, _⟩ := exists_partner hindents.flip hi
    rcases hseen with hempty | ⟨l', hl', hmargin⟩
    · exact .inl (by simpa using hempty)
    · obtain ⟨b, hb, hread⟩ := exists_partner hmargins hl'
      have heq := hread.eq_of_margin hmargin
      exact .inr (String.ofList_inj.mp heq ▸ hb)
  · have hpairs : ∀ {xs : List LogicalLine} {ys zs : List (List Char)}, List.Forall₂ LogicalLine.ReadWith xs ys →
        List.Forall₂ (LogicalLine.WrittenWith (MarginOf lines)) xs zs → List.Forall₂
          (fun m i => '\\' ∉ m → Width.of (String.ofList i) = Width.of (String.ofList m)) ys zs := by
      intro xs ys zs hys hzs
      induction hys generalizing zs with
      | nil =>
        cases hzs
        exact .nil
      | cons hread _ ih =>
        cases hzs with
        | cons hwritten hrest => exact .cons (fun hm => hwritten.2 _ (hread.margin hm)) (ih hrest)
    exact hpairs hmargins hindents

section
variable {cs out : List Char} {lines : List LogicalLine} {last : List Line} {margins indents : List (List Char)}

end

end Conformance.Source
