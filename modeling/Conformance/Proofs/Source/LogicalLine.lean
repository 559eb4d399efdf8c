import Mathlib.Data.List.Forall2
import Conformance.Source.LogicalLine
import Conformance.Proofs.Source.Lexeme

/-!
# A text is the text of its logical lines

A text is a sequence of stretches, each up to a line break outside brackets and strings: a line without tokens
or a logical line.  `Reads cs ss` says that the characters are those of the stretches, that every stretch but the
last is ended by the line break it was read with, and that a last one without a line break does not end with
one by accident.

`scan_reads` says that the logical lines of a text, each with the blanks it was read with in front of it, and the
lines after them are all of the text.
-/

namespace Conformance.Source

open Conformance.Text

/-- A piece of text up to a line break. -/
structure Stretch where
  body : List Char
  newline : Newline

def Stretch.chars (style : Style) (s : Stretch) : List Char :=
  s.body ++ (s.newline.text style).toList

/-- The piece of text that a line without tokens is. -/
def Line.stretch (indent : String) (l : Line) : Stretch :=
  ⟨(if l.margin then indent.toList else []) ++ l.blank.toList ++ l.comment.toList, l.newline⟩

/-- The pieces of text that a logical line is, with the given blanks in front of its first token. -/
def LogicalLine.stretches (style : Style) (indent : String) (margin : List Char) (l : LogicalLine) :
    List Stretch :=
  l.lead.map (Line.stretch indent) ++
    [⟨margin ++ charsOf (l.tokens.flatMap (Token.chunks style indent)) ++ l.stop.comment.toList, l.stop.newline⟩]

/-- The pieces of text that logical lines are, each with its blanks as they are given. -/
def stretchesOf (style : Style) (lines : List LogicalLine) (margins : List (List Char)) : List Stretch :=
  (List.zipWith (fun l m => l.stretches style "" m) lines margins).flatten

/-- The characters are read as the stretches. -/
inductive Reads : List Char → List Stretch → Prop
  | nil : Reads [] []
  | line {body rest : List Char} {nl : String} {ss : List Stretch} : nl ∈ lineBreaks → Reads rest ss →
      Reads (body ++ nl.toList ++ rest) (⟨body, .own nl⟩ :: ss)
  | last {body : List Char} : body ≠ [] → Calm body → Reads body [⟨body, .own ""⟩]

theorem Reads.chars {cs : List Char} {ss : List Stretch} (h : Reads cs ss) (style : Style) :
    ss.flatMap (Stretch.chars style) = cs := by
  induction h with
  | nil => rfl
  | line _ _ ih => simp [Stretch.chars, Newline.text, ih]
  | last => simp [Stretch.chars, Newline.text]

theorem Reads.eq_nil {ss : List Stretch} (h : Reads [] ss) : ss = [] := by
  generalize hcs : ([] : List Char) = cs at h
  cases h with
  | nil => rfl
  | line hnl _ => exact absurd (by simp_all) (ne_empty_of_mem_lineBreaks hnl)
  | last hbody _ => exact absurd hcs.symm hbody

/-- One more stretch in front.  If it has no line break, nothing is left after it. -/
theorem Reads.cons {body rest : List Char} {nl : String} {ss : List Stretch} (h : Reads rest ss)
    (hnl : nl ∈ lineBreaks ∨ nl = "" ∧ rest = [] ∧ body ≠ [] ∧ Calm body) :
    Reads (body ++ nl.toList ++ rest) (⟨body, .own nl⟩ :: ss) := by
  rcases hnl with hnl | ⟨rfl, rfl, hbody, hcalm⟩
  · exact .line hnl h
  · rw [h.eq_nil]
    simpa using Reads.last hbody hcalm

/-- A text that is read as stretches has a last one.  Either it ends as that one does, with a line break, or the
last line break is missing and no other stands at the end. -/
theorem Reads.exists_last {cs : List Char} {ss : List Stretch} (h : Reads cs ss) : ss = [] ∨
    ∃ front last nl, ss = front ++ [last] ∧ (∀ s ∈ front, ∃ t ∈ lineBreaks, s.newline = .own t) ∧
      last.newline = .own nl ∧ (nl = "" ∧ Calm cs ∨ nl ∈ lineBreaks ∧ cs.getLast? = nl.toList.getLast?) := by
  have hlast {nl : String} {front : List Char} (hnl : nl ∈ lineBreaks) :
      (front ++ nl.toList).getLast? = nl.toList.getLast? := by
    have hne : nl.toList ≠ [] := by simpa using ne_empty_of_mem_lineBreaks hnl
    rw [List.getLast?_append, List.getLast?_eq_some_getLast hne]
    rfl
  induction h with
  | nil => exact .inl rfl
  | @line body rest nl ss hnl hrest ih =>
    refine .inr ?_
    rcases ih with rfl | ⟨front, last, t, rfl, hfront, ht, hend⟩
    · have hnil : rest = [] := by simpa using (hrest.chars {}).symm
      subst hnil
      refine ⟨[], _, nl, rfl, by simp, rfl, .inr ⟨hnl, ?_⟩⟩
      rw [List.append_nil]
      exact hlast hnl
    · have hne : rest ≠ [] := by
        rintro rfl
        simpa using hrest.eq_nil
      refine ⟨⟨body, .own nl⟩ :: front, last, t, rfl, List.forall_mem_cons.mpr ⟨⟨nl, hnl, rfl⟩, hfront⟩, ht, ?_⟩
      refine hend.imp (fun ⟨hempty, hcalm⟩ => ⟨hempty, calm_append hcalm fun hnil => absurd hnil hne⟩)
        (fun ⟨hmem, heq⟩ => ⟨hmem, ?_⟩)
      rw [List.getLast?_append, List.getLast?_eq_some_getLast hne, ← heq, List.getLast?_eq_some_getLast hne]
      rfl
  | last hbody hcalm => exact .inr ⟨[], _, "", rfl, by simp, rfl, .inl ⟨rfl, hcalm⟩⟩

/-! ## Tokens -/

/-- A token as it is read: its white space has all its blanks and line breaks. -/
def Token.Raw (t : Token) : Prop :=
  ∀ b ∈ t.after.breaks, b.Raw

theorem scanTokens_append {n : Nat} {stack : List Frame} {cs rest : List Char} {ts : List Token}
    (h : scanTokens n stack cs = some (ts, rest)) (style : Style) :
    charsOf (ts.flatMap (Token.chunks style "")) ++ rest = cs ∧ ∀ t ∈ ts, t.Raw := by
  induction n generalizing stack cs ts with
  | zero => cases h
  | succ n ih =>
    unfold scanTokens at h
    split at h
    · cases h
      exact ⟨rfl, by simp⟩
    · obtain ⟨lex, hlex, h⟩ := Option.bind_eq_some_iff.mp h
      obtain ⟨⟨after, rest₁⟩, hafter, h⟩ := Option.bind_eq_some_iff.mp h
      obtain ⟨⟨more, rest₂⟩, hmore, h⟩ := Option.bind_eq_some_iff.mp h
      cases h
      obtain ⟨hspace, hbreaks⟩ := trivia_append hafter style
      obtain ⟨htext, hraw⟩ := ih hmore
      refine ⟨?_, List.forall_mem_cons.mpr ⟨hbreaks, hraw⟩⟩
      simp only [List.flatMap_cons, Token.chunks, charsOf_append, charsOf_chunk, String.toList_ofList,
        List.append_assoc, htext, hspace, lexeme_append hlex]

theorem lexeme_nil (stack : List Frame) : lexeme stack [] = none := by
  unfold lexeme
  split
  · unfold literalLexeme
    cases enclosingText? stack <;> rfl
  · rfl

/-- At the end of the text nothing may be open. -/
theorem scanTokens_nil {n : Nat} {stack : List Frame} {r : List Token × List Char}
    (h : scanTokens n stack [] = some r) : stack = [] := by
  cases n with
  | zero => cases h
  | succ n =>
    unfold scanTokens at h
    split at h
    · rename_i hempty
      simpa using hempty
    · rw [lexeme_nil] at h
      cases h

/-- Tokens that reach the end of the text do not end with a line break. -/
theorem scanTokens_calm {n : Nat} {stack : List Frame} {cs : List Char} {ts : List Token}
    (h : scanTokens n stack cs = some (ts, [])) (hstack : ∀ f ∈ stack, f.Calm) : Calm cs := by
  induction n generalizing stack cs ts with
  | zero => cases h
  | succ n ih =>
    unfold scanTokens at h
    split at h
    · cases h
      exact oneLine_nil.calm
    · obtain ⟨lex, hlex, h⟩ := Option.bind_eq_some_iff.mp h
      obtain ⟨⟨after, rest₁⟩, hafter, h⟩ := Option.bind_eq_some_iff.mp h
      obtain ⟨⟨more, rest₂⟩, hmore, h⟩ := Option.bind_eq_some_iff.mp h
      cases h
      obtain ⟨hcalm, hframes⟩ := lexeme_calm hlex hstack
      rw [← lexeme_append hlex, ← (trivia_append hafter {}).1, ← List.append_assoc]
      refine calm_append (ih hmore hframes) fun hrest => ?_
      -- nothing is left, so nothing is open, and only blanks stand after the lexeme
      subst hrest
      have hempty : lex.stack = [] := scanTokens_nil hmore
      rw [hempty, trivia] at hafter
      obtain ⟨⟨blank, left⟩, hblank, hafter⟩ := Option.bind_eq_some_iff.mp hafter
      cases hafter
      have hspace : Calm blank := by
        have hall := blanks_calm hblank
        rwa [← blanks_append hblank, List.append_nil] at hall
      simpa [Trivia.chunks] using calm_append hspace fun _ => hcalm hempty

/-! ## Line ends -/

theorem comment_oneLine (cs : List Char) : OneLine (comment cs).1 := by
  unfold comment
  split
  · intro c hc
    simpa using List.all_eq_true.mp List.all_takeWhile c hc
  · exact oneLine_nil

theorem lineEnd?_eq_some {cs rest : List Char} {stop : LineEnd} (h : lineEnd? cs = some (stop, rest)) :
    ∃ nl, stop.newline = .own nl ∧ stop.comment.toList ++ nl.toList ++ rest = cs ∧
      OneLine stop.comment.toList ∧ (nl ∈ lineBreaks ∨ nl = "" ∧ rest = []) := by
  have hnote := comment_append cs
  have hline := comment_oneLine cs
  unfold lineEnd? at h
  dsimp only at h
  split at h
  · rename_i nl left hbreak
    cases h
    refine ⟨_, rfl, ?_, by simpa using hline, .inl (lineBreak?_mem hbreak)⟩
    simp only [String.toList_ofList, List.append_assoc, lineBreak?_append hbreak, hnote]
  · split at h
    · rename_i hempty
      cases h
      refine ⟨_, rfl, ?_, by simpa using hline, .inr ⟨rfl, rfl⟩⟩
      rw [List.isEmpty_iff.mp hempty] at hnote
      simpa using hnote
    · cases h

/-- A stretch that ends as a line ends. -/
theorem Reads.stop {front rest left cs : List Char} {stop : LineEnd} {ss : List Stretch}
    (hreads : Reads left ss) (hstop : lineEnd? rest = some (stop, left)) (hcs : front ++ rest = cs)
    (hne : cs ≠ []) (hcalm : rest = [] → Calm front) :
    Reads cs (⟨front ++ stop.comment.toList, stop.newline⟩ :: ss) := by
  obtain ⟨nl, hnl, htext, hline, hend⟩ := lineEnd?_eq_some hstop
  have hall : front ++ stop.comment.toList ++ nl.toList ++ left = cs := by
    rw [← hcs, ← htext]
    simp only [List.append_assoc]
  rw [hnl, ← hall]
  refine hreads.cons (hend.imp_right fun ⟨hnil, hleft⟩ => ⟨hnil, hleft, fun hbody => ?_, ?_⟩)
  · rw [hbody, hnil, hleft] at hall
    exact hne hall.symm
  · refine calm_append hline.calm fun hcomment => hcalm ?_
    rw [← htext, hcomment, hnil, hleft]
    rfl

/-! ## Lines -/

/-- How the lines of a text go on: it ends, a line without tokens follows, or a logical line. -/
theorem scanLines_cases {n : Nat} {lead last : List Line} {cs : List Char} {lines : List LogicalLine}
    (h : scanLines (n + 1) lead cs = some (lines, last)) :
    (cs = [] ∧ lines = [] ∧ last = lead.reverse) ∨
    (cs ≠ [] ∧ ∃ blank rest stop left, blanks cs = some (blank, rest) ∧ lineEnd? rest = some (stop, left) ∧
      scanLines n ({ blank := String.ofList blank, comment := stop.comment, newline := stop.newline } :: lead)
        left = some (lines, last)) ∨
    (cs ≠ [] ∧ ∃ blank rest tokens beyond stop left more, blanks cs = some (blank, rest) ∧ lineEnd? rest = none ∧
      scanTokens (rest.length + 1) [] rest = some (tokens, beyond) ∧ lineEnd? beyond = some (stop, left) ∧
      scanLines n [] left = some (more, last) ∧
      lines = { lead := lead.reverse,
                margin := if blank.contains '\\' then none else some (String.ofList blank),
                tokens, stop } :: more) := by
  unfold scanLines at h
  split at h
  · rename_i hempty
    cases h
    exact .inl ⟨List.isEmpty_iff.mp hempty, rfl, rfl⟩
  · rename_i hne
    have hcs : cs ≠ [] := fun hnil => hne (List.isEmpty_iff.mpr hnil)
    obtain ⟨⟨blank, rest⟩, hblank, h⟩ := Option.bind_eq_some_iff.mp h
    dsimp only at h
    split at h
    · rename_i stop left hstop
      exact .inr (.inl ⟨hcs, blank, rest, stop, left, hblank, hstop, h⟩)
    · rename_i hnone
      obtain ⟨⟨tokens, beyond⟩, htokens, h⟩ := Option.bind_eq_some_iff.mp h
      obtain ⟨⟨stop, left⟩, hstop, h⟩ := Option.bind_eq_some_iff.mp h
      obtain ⟨⟨more, foot⟩, hmore, h⟩ := Option.bind_eq_some_iff.mp h
      cases h
      exact .inr (.inr ⟨hcs, blank, rest, tokens, beyond, stop, left, more, hblank, hnone, htokens, hstop, hmore, rfl⟩)

/-- The blanks a logical line was read with: the margin it keeps, or some with a backslash among them. -/
def LogicalLine.ReadWith (l : LogicalLine) (blank : List Char) : Prop :=
  l.margin = if blank.contains '\\' then none else some (String.ofList blank)

theorem blanks_calm_of_nil {cs blank rest : List Char} (h : blanks cs = some (blank, rest)) (hrest : rest = []) :
    Calm blank := by
  subst hrest
  have hall := blanks_calm h
  rwa [← blanks_append h, List.append_nil] at hall

theorem scanLines_reads (style : Style) {n : Nat} {lead last : List Line} {cs : List Char}
    {lines : List LogicalLine} (h : scanLines n lead cs = some (lines, last)) :
    ∃ margins ss, List.Forall₂ LogicalLine.ReadWith lines margins ∧ Reads cs ss ∧
      stretchesOf style lines margins ++ last.map (Line.stretch "") = lead.reverse.map (Line.stretch "") ++ ss := by
  induction n generalizing lead cs lines with
  | zero => cases h
  | succ n ih =>
    obtain ⟨rfl, rfl, rfl⟩ | ⟨hne, blank, rest, stop, left, hblank, hstop, hmore⟩ |
      ⟨hne, blank, rest, tokens, beyond, stop, left, more, hblank, -, htokens, hstop, hmore, rfl⟩ :=
      scanLines_cases h
    · exact ⟨[], [], .nil, .nil, by simp [stretchesOf]⟩
    · -- a line without tokens joins the lead
      obtain ⟨margins, ss, hmargins, hreads, hss⟩ := ih hmore
      refine ⟨margins, _, hmargins, hreads.stop hstop (blanks_append hblank) hne (blanks_calm_of_nil hblank), ?_⟩
      simp [hss, Line.stretch]
    · obtain ⟨margins, ss, hmargins, hreads, hss⟩ := ih hmore
      have hchars := (scanTokens_append htokens style).1
      have hfront : blank ++ charsOf (tokens.flatMap (Token.chunks style "")) ++ beyond = cs := by
        rw [List.append_assoc, hchars, blanks_append hblank]
      refine ⟨blank :: margins, _, .cons rfl hmargins, hreads.stop hstop hfront hne fun hbeyond => ?_, ?_⟩
      · rw [hbeyond, List.append_nil] at hchars
        rw [hchars]
        rw [hbeyond] at htokens
        exact calm_append (scanTokens_calm htokens (by simp)) (blanks_calm_of_nil hblank)
      · have hcons : ∀ l, stretchesOf style (l :: more) (blank :: margins) =
            l.stretches style "" blank ++ stretchesOf style more margins := fun _ => rfl
        rw [hcons, List.append_assoc, hss]
        simp [LogicalLine.stretches]

theorem scanLines_raw {n : Nat} {lead last : List Line} {cs : List Char} {lines : List LogicalLine}
    (h : scanLines n lead cs = some (lines, last)) : ∀ l ∈ lines, ∀ t ∈ l.tokens, t.Raw := by
  induction n generalizing lead cs lines with
  | zero => cases h
  | succ n ih =>
    obtain ⟨_, rfl, _⟩ | ⟨_, _, _, _, _, _, _, hmore⟩ | ⟨_, _, _, tokens, _, _, _, _, _, _, htokens, _, hmore, rfl⟩ :=
      scanLines_cases h
    · exact fun l hl => nomatch hl
    · exact ih hmore
    · exact List.forall_mem_cons.mpr ⟨(scanTokens_append htokens {}).2, ih hmore⟩

/-- The logical lines of a text, with the blanks they were read with, and the lines after them are its text. -/
theorem scan_reads (style : Style) {cs : List Char} {lines : List LogicalLine} {last : List Line}
    (h : scan cs = some (lines, last)) :
    ∃ margins, List.Forall₂ LogicalLine.ReadWith lines margins ∧
      Reads cs (stretchesOf style lines margins ++ last.map (Line.stretch "")) := by
  obtain ⟨margins, ss, hmargins, hreads, hss⟩ := scanLines_reads style h
  refine ⟨margins, hmargins, ?_⟩
  rw [hss]
  exact hreads

end Conformance.Source
