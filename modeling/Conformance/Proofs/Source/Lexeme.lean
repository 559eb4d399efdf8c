import Conformance.Source.Lexeme

/-!
# Lexemes lose no character

Each reader cuts the characters it is given in two: what it took, followed by what it left, is what it was
given.  `lexeme_append` says so of a whole lexeme and `trivia_append` of the white space after it.

A lexeme that leaves nothing open does not end with a line break (`lexeme_calm`), and neither do the blanks
at the end of a text: the last line of a text without a final line break ends with its last token or blank.
-/

namespace Conformance.Source

open Conformance.Text

/-- What is left of a cut after characters were put in front of it. -/
theorem prepend_append {o : Option Cut} {front cs a b : List Char}
    (h : o.map (Cut.prepend front) = some (a, b)) (ih : ∀ {a'}, o = some (a', b) → a' ++ b = cs) :
    a ++ b = front ++ cs := by
  obtain ⟨⟨a', b'⟩, ho, hcut⟩ := Option.map_eq_some_iff.mp h
  cases hcut
  rw [List.append_assoc, ih ho]

/-! ## White space -/

theorem blanks_append {cs a b : List Char} (h : blanks cs = some (a, b)) : a ++ b = cs := by
  fun_induction blanks cs generalizing a with
  | case1 => cases h
  | case2 _ _ ih => exact prepend_append h ih
  | case3 => cases h
  | case4 _ _ _ ih => exact prepend_append h ih
  | case5 => cases h
  | case6 _ _ ih => exact prepend_append h ih
  | case7 => cases h
  | case8 _ _ _ _ _ _ _ ih => exact prepend_append h ih
  | case9 => cases h; rfl
  | case10 => cases h; rfl

theorem comment_append (cs : List Char) : (comment cs).1 ++ (comment cs).2 = cs := by
  unfold comment
  split
  · exact List.takeWhile_append_dropWhile
  · rfl

/-! ## Numbers -/

theorem digits_append {p : Char → Bool} {cs a b : List Char} (h : digits p cs = some (a, b)) : a ++ b = cs := by
  fun_induction digits p cs generalizing a with
  | case1 _ _ _ ih => exact prepend_append h ih
  | case2 => cases h
  | case3 => cases h
  | case4 _ _ _ _ _ ih => exact prepend_append h ih
  | case5 => cases h; rfl
  | case6 => cases h; rfl

theorem someDigits_eq_some {p : Char → Bool} {cs : List Char} {c : Cut} (h : someDigits p cs = some c) :
    digits p cs = some c := by
  obtain ⟨c', hc, hsome⟩ := Option.bind_eq_some_iff.mp h
  split at hsome
  · cases hsome
  · cases hsome
    exact hc

theorem exponent_append {cs a b : List Char} (h : exponent cs = some (a, b)) : a ++ b = cs := by
  unfold exponent at h
  split at h
  · split at h
    · split at h
      · exact prepend_append h digits_append
      · split at h
        · exact prepend_append h digits_append
        · cases h; rfl
    · cases h; rfl
  · split at h
    · cases h; rfl
    · cases h; rfl
  · cases h; rfl

theorem imaginary_append (cs : List Char) : (imaginary cs).1 ++ (imaginary cs).2 = cs := by
  unfold imaginary
  split
  · split <;> rfl
  · rfl

theorem fraction_append {cs a b : List Char} (h : fraction cs = some (a, b)) : a ++ b = cs := by
  unfold fraction at h
  split at h
  · split at h
    · exact prepend_append h digits_append
    · cases h; rfl
  · cases h; rfl
  · cases h; rfl

/-- The parts of a decimal number. -/
theorem decimal_eq_some {cs a b : List Char} (h : decimal cs = some (a, b)) :
    ∃ whole part power rest₁ rest₂ rest₃, digits Char.isDigit cs = some (whole, rest₁) ∧
      fraction rest₁ = some (part, rest₂) ∧ exponent rest₂ = some (power, rest₃) ∧
      a = whole ++ (part ++ power ++ (imaginary rest₃).1) ∧ b = (imaginary rest₃).2 := by
  obtain ⟨⟨whole, rest₁⟩, hwhole, h⟩ := Option.bind_eq_some_iff.mp h
  obtain ⟨⟨part, rest₂⟩, hpart, h⟩ := Option.bind_eq_some_iff.mp h
  obtain ⟨⟨power, rest₃⟩, hpower, h⟩ := Option.bind_eq_some_iff.mp h
  dsimp only at h
  split at h
  · cases h
  · cases h
    exact ⟨whole, part, power, rest₁, rest₂, rest₃, hwhole, hpart, hpower, rfl, rfl⟩

theorem decimal_append {cs a b : List Char} (h : decimal cs = some (a, b)) : a ++ b = cs := by
  obtain ⟨whole, part, power, rest₁, rest₂, rest₃, hwhole, hpart, hpower, rfl, rfl⟩ := decimal_eq_some h
  simp only [List.append_assoc, imaginary_append, exponent_append hpower, fraction_append hpart,
    digits_append hwhole]

theorem number_append {cs a b : List Char} (h : number cs = some (a, b)) : a ++ b = cs := by
  unfold number at h
  split at h
  · split at h
    · exact prepend_append h fun h => digits_append (someDigits_eq_some h)
    · split at h
      · exact prepend_append h fun h => digits_append (someDigits_eq_some h)
      · split at h
        · exact prepend_append h fun h => digits_append (someDigits_eq_some h)
        · exact decimal_append h
  · exact decimal_append h

/-! ## Strings -/

theorem closeSingle_append {q : Char} {cs a b : List Char} (h : closeSingle q cs = some (a, b)) :
    a ++ b = cs := by
  fun_induction closeSingle q cs generalizing a with
  | case1 _ ih => exact prepend_append h ih
  | case2 _ _ _ ih => exact prepend_append h ih
  | case3 => cases h; rfl
  | case4 => cases h
  | case5 _ _ _ _ _ _ ih => exact prepend_append h ih
  | case6 => cases h

theorem closeTriple_append {q : Char} {cs a b : List Char} (h : closeTriple q cs = some (a, b)) :
    a ++ b = cs := by
  fun_induction closeTriple q cs generalizing a with
  | case1 _ _ ih => exact prepend_append h ih
  | case2 => cases h; rfl
  | case3 _ _ _ _ _ _ ih => exact prepend_append h ih
  | case4 => cases h

theorem quoted_append {cs a b : List Char} (h : quoted cs = some (a, b)) : a ++ b = cs := by
  unfold quoted at h
  split at h
  · split at h
    · exact prepend_append h closeTriple_append
    · exact prepend_append h closeSingle_append
  · exact prepend_append h closeSingle_append
  · cases h

theorem templateText_append {q : Char} {triple raw inFormat named : Bool} {cs a b : List Char}
    (h : templateText q triple raw inFormat named cs = some (a, b)) : a ++ b = cs := by
  fun_induction templateText q triple raw inFormat named cs generalizing a with
  | case1 | case2 | case11 => cases h
  -- the text ends before this character
  | case10 | case12 | case14 | case16 | case18 => cases h; rfl
  -- an escape, a doubled brace or a character of the text
  | case3 _ _ _ _ _ ih | case4 _ _ _ _ _ ih | case5 _ _ _ _ ih | case6 _ _ _ _ ih => exact prepend_append h ih
  | case7 _ _ _ ih | case8 _ _ _ _ _ _ _ ih | case9 _ _ _ _ _ _ _ ih => exact prepend_append h ih
  | case13 _ _ _ _ _ _ ih | case15 _ _ _ _ _ ih | case17 _ _ _ _ _ _ _ _ ih => exact prepend_append h ih
  | case19 _ _ _ _ _ _ _ _ ih => exact prepend_append h ih

/-! ## Operators -/

theorem stripFront?_eq_some {front cs rest : List Char} (h : stripFront? front cs = some rest) :
    cs = front ++ rest := by
  fun_induction stripFront? front cs with
  | case1 => cases h; rfl
  | case2 => cases h
  | case3 p ps cs ih => rw [ih h]; rfl
  | case4 => cases h

theorem operator_eq_some {cs a b : List Char} (h : operator cs = some (a, b)) :
    a ++ b = cs ∧ ∃ op ∈ operators, a = op.toList := by
  obtain ⟨op, hop, hcut⟩ := List.exists_of_findSome?_eq_some h
  obtain ⟨rest, hrest, hpair⟩ := Option.map_eq_some_iff.mp hcut
  cases hpair
  exact ⟨(stripFront?_eq_some hrest).symm, op, hop, rfl⟩

/-! ## Lexemes -/

theorem literalLexeme_append {stack : List Frame} {cs : List Char} {lex : Lexeme}
    (h : literalLexeme stack cs = some lex) : lex.text ++ lex.rest = cs := by
  obtain ⟨⟨q, triple, raw⟩, _, h⟩ := Option.bind_eq_some_iff.mp h
  obtain ⟨⟨text, rest⟩, htext, h⟩ := Option.bind_eq_some_iff.mp h
  have happend := templateText_append htext
  dsimp only at h
  split at h
  · cases h
    exact happend
  · rename_i hempty
    have hnil : text = [] := by simpa using hempty
    subst hnil
    split at h
    · cases h; exact happend
    · cases h; exact happend
    · split at h
      · cases h
        rw [List.take_append_drop]
        exact happend
      · cases h
    · cases h

/-- The character that ends what is open is no line break. -/
def Frame.Calm : Frame → Prop
  | .bracket close => isNewline close = false
  | .text quote _ _ => isNewline quote = false
  | .field => True
  | .format => True

theorem closes_getLast? {q : Char} {triple : Bool} {cs : List Char} (h : closes q triple cs = true) :
    (cs.take (if triple then 3 else 1)).getLast? = some q := by
  unfold closes at h
  split at h
  · cases triple with
    | true => simp at h; simp [h]
    | false => simp at h; simp [h]
  · cases triple with
    | true => simp at h
    | false => simp at h; simp [h]
  · cases h

/-- What can be read where code stands. -/
inductive CodeRead (stack : List Frame) (cs : List Char) : Lexeme → Prop
  | string {word beyond s rest : List Char} {q : Char} : cs = word ++ q :: beyond → isNewline q = false →
      quoted (q :: beyond) = some (s, rest) → CodeRead stack cs ⟨.string, word ++ s, stack, rest⟩
  | template {word beyond : List Char} {q : Char} (triple raw : Bool) (n : Nat) : cs = word ++ beyond →
      isNewline q = false → (beyond.take n).getLast? = some q →
      CodeRead stack cs ⟨.templateStart, word ++ beyond.take n, .text q triple raw :: stack, beyond.drop n⟩
  | name : Identifier.isName (cs.takeWhile Identifier.mayContinue) = true → CodeRead stack cs
      ⟨.name, cs.takeWhile Identifier.mayContinue, stack, cs.dropWhile Identifier.mayContinue⟩
  | number {s rest : List Char} : number cs = some (s, rest) → CodeRead stack cs ⟨.number, s, stack, rest⟩
  | mark {c : Char} {rest : List Char} {stack' : List Frame} : cs = c :: rest →
      ((∀ f ∈ stack, f.Calm) → isNewline c = false ∧ ∀ f ∈ stack', f.Calm) →
      CodeRead stack cs ⟨.operator, [c], stack', rest⟩
  | operator {s rest : List Char} : operator cs = some (s, rest) →
      CodeRead stack cs ⟨.operator, s, stack, rest⟩

theorem closing?_calm {c close : Char} (h : closing? c = some close) :
    isNewline c = false ∧ (Frame.bracket close).Calm := by
  unfold closing? at h
  split at h
  · cases h; exact ⟨rfl, rfl⟩
  · cases h; exact ⟨rfl, rfl⟩
  · cases h; exact ⟨rfl, rfl⟩
  · cases h

theorem isNewline_of_quote {q : Char} (h : (q == '"' || q == '\'') = true) : isNewline q = false := by
  rcases Bool.or_eq_true_iff.mp h with hq | hq
  · rw [eq_of_beq hq]; rfl
  · rw [eq_of_beq hq]; rfl

theorem codeRead_of_codeLexeme {stack : List Frame} {cs : List Char} {lex : Lexeme}
    (h : codeLexeme stack cs = some lex) : CodeRead stack cs lex := by
  unfold codeLexeme at h
  split at h
  · cases h
  · rename_i c rest
    have hsplit := @List.takeWhile_append_dropWhile Char Identifier.mayContinue (c :: rest)
    dsimp only at h
    split at h
    · split at h
      · rename_i q hquote _
        obtain ⟨⟨s, left⟩, hs, rfl⟩ := Option.map_eq_some_iff.mp h
        obtain ⟨hhead, hq⟩ := Option.filter_eq_some_iff.mp hquote
        obtain ⟨beyond, hbeyond⟩ := List.head?_eq_some_iff.mp hhead
        rw [hbeyond] at hsplit hs
        exact .string hsplit.symm (isNewline_of_quote hq) hs
      · rename_i q raw hquote _
        cases h
        obtain ⟨hhead, hq⟩ := Option.filter_eq_some_iff.mp hquote
        refine .template _ _ _ hsplit.symm (isNewline_of_quote hq) ?_
        by_cases htriple : closes q true ((c :: rest).dropWhile Identifier.mayContinue) = true
        · rw [if_pos htriple]
          exact closes_getLast? htriple
        · rw [if_neg htriple]
          obtain ⟨beyond, hbeyond⟩ := List.head?_eq_some_iff.mp hhead
          rw [hbeyond]
          rfl
      · split at h
        · next hname => cases h; exact .name hname
        · cases h
    · split at h
      · obtain ⟨⟨s, left⟩, hs, rfl⟩ := Option.map_eq_some_iff.mp h
        exact .number hs
      · split at h
        · rename_i close hclose
          cases h
          refine .mark rfl fun hstack => ⟨(closing?_calm hclose).1, ?_⟩
          exact List.forall_mem_cons.mpr ⟨(closing?_calm hclose).2, hstack⟩
        · split at h
          · rename_i hc
            cases h
            exact .mark rfl fun hstack => ⟨hc ▸ hstack _ List.mem_cons_self,
              fun f hf => hstack f (List.mem_cons_of_mem _ hf)⟩
          · obtain ⟨⟨s, left⟩, hs, rfl⟩ := Option.map_eq_some_iff.mp h
            exact .operator hs
        · split at h
          · rename_i hc
            cases h
            exact .mark rfl fun hstack => ⟨hc ▸ rfl, fun f hf => hstack f (List.mem_cons_of_mem _ hf)⟩
          · split at h
            · rename_i hc
              cases h
              exact .mark rfl fun hstack => ⟨hc ▸ rfl, List.forall_mem_cons.mpr ⟨trivial, hstack⟩⟩
            · split at h
              · rename_i hc
                cases h
                have hbang : c = '!' := by simp at hc; exact hc.1
                exact .mark rfl fun hstack => ⟨hbang ▸ rfl, hstack⟩
              · obtain ⟨⟨s, left⟩, hs, rfl⟩ := Option.map_eq_some_iff.mp h
                exact .operator hs
        · obtain ⟨⟨s, left⟩, hs, rfl⟩ := Option.map_eq_some_iff.mp h
          exact .operator hs

theorem codeLexeme_append {stack : List Frame} {cs : List Char} {lex : Lexeme}
    (h : codeLexeme stack cs = some lex) : lex.text ++ lex.rest = cs := by
  cases codeRead_of_codeLexeme h with
  | string hcs _ hs => simp only [List.append_assoc, quoted_append hs, hcs]
  | template _ _ _ hcs _ _ => simp only [List.append_assoc, List.take_append_drop, hcs]
  | name _ => exact List.takeWhile_append_dropWhile
  | number hs => exact number_append hs
  | mark hcs _ => exact hcs.symm
  | operator hs => exact (operator_eq_some hs).1

theorem lexeme_append {stack : List Frame} {cs : List Char} {lex : Lexeme} (h : lexeme stack cs = some lex) :
    lex.text ++ lex.rest = cs := by
  unfold lexeme at h
  split at h
  · exact literalLexeme_append h
  · exact codeLexeme_append h

/-! ## The white space after a lexeme -/

/-- The characters of some chunks. -/
def charsOf (chunks : List String) : List Char :=
  chunks.flatMap String.toList

@[simp] theorem charsOf_nil : charsOf [] = [] := rfl

@[simp] theorem charsOf_cons (s : String) (ss : List String) : charsOf (s :: ss) = s.toList ++ charsOf ss := rfl

@[simp] theorem charsOf_append (xs ys : List String) : charsOf (xs ++ ys) = charsOf xs ++ charsOf ys :=
  List.flatMap_append

@[simp] theorem charsOf_chunk (s : String) : charsOf (chunk s) = s.toList := by
  unfold chunk
  split
  · rename_i h; rw [h]; rfl
  · simp

/-- A line break inside white space as it is read: with all its blanks and its own characters. -/
def Break.Raw (b : Break) : Prop :=
  b.margin = false ∧ ∃ s, s ≠ "" ∧ b.newline = .own s

/-- The characters that end a line. -/
def lineBreaks : List String := ["\n", "\r\n", "\r"]

theorem lineBreak?_mem {cs nl rest : List Char} (h : lineBreak? cs = some (nl, rest)) :
    String.ofList nl ∈ lineBreaks := by
  unfold lineBreak? at h
  split at h
  · cases h; decide
  · cases h; decide
  · cases h; decide
  · cases h

theorem ne_empty_of_mem_lineBreaks {nl : String} (h : nl ∈ lineBreaks) : nl ≠ "" := by
  rintro rfl
  exact absurd h (by decide)

theorem breaks_append {n : Nat} {cs rest : List Char} {bs : List Break} (h : breaks n cs = some (bs, rest))
    (style : Style) : charsOf (bs.flatMap (Break.chunks style "")) ++ rest = cs ∧ ∀ b ∈ bs, b.Raw := by
  induction n generalizing cs bs with
  | zero => cases h
  | succ n ih =>
    have hnote := comment_append cs
    unfold breaks at h
    dsimp only at h
    split at h
    · cases h
      exact ⟨rfl, by simp⟩
    · rename_i nl left hbreak
      obtain ⟨⟨blank, left₁⟩, hblank, h⟩ := Option.bind_eq_some_iff.mp h
      obtain ⟨⟨more, left₂⟩, hmore, h⟩ := Option.bind_eq_some_iff.mp h
      cases h
      obtain ⟨htext, hraw⟩ := ih hmore
      constructor
      · simp only [List.flatMap_cons, charsOf_append, Break.chunks, charsOf_chunk, charsOf_cons, charsOf_nil,
          Newline.text, String.toList_ofList, List.append_assoc, List.nil_append, htext, blanks_append hblank,
          lineBreak?_append hbreak, hnote, Bool.false_eq_true, if_false]
      · exact List.forall_mem_cons.mpr ⟨⟨rfl, _, ne_empty_of_mem_lineBreaks (lineBreak?_mem hbreak), rfl⟩, hraw⟩

theorem trivia_append {stack : List Frame} {cs rest : List Char} {t : Trivia}
    (h : trivia stack cs = some (t, rest)) (style : Style) :
    charsOf (t.chunks style "") ++ rest = cs ∧ ∀ b ∈ t.breaks, b.Raw := by
  unfold trivia at h
  split at h
  · cases h
    exact ⟨rfl, by simp⟩
  · obtain ⟨⟨blank, left⟩, hblank, h⟩ := Option.bind_eq_some_iff.mp h
    have hfirst := blanks_append hblank
    dsimp only at h
    split at h
    · cases h
      exact ⟨by simpa [Trivia.chunks] using hfirst, by simp⟩
    · obtain ⟨⟨lines, left₁⟩, hlines, h⟩ := Option.bind_eq_some_iff.mp h
      cases h
      obtain ⟨htext, hraw⟩ := breaks_append hlines style
      refine ⟨?_, hraw⟩
      simp only [Trivia.chunks, charsOf_append, charsOf_chunk, String.toList_ofList, List.append_assoc, htext,
        hfirst]

/-! ## The end of a lexeme -/

/-- The characters hold no line break. -/
def OneLine (cs : List Char) : Prop :=
  ∀ c ∈ cs, isNewline c = false

/-- The characters do not end with a line break. -/
def Calm (cs : List Char) : Prop :=
  ∀ c, cs.getLast? = some c → isNewline c = false

theorem OneLine.calm {cs : List Char} (h : OneLine cs) : Calm cs :=
  fun c hc => h c (List.mem_of_getLast? hc)

theorem calm_append {a b : List Char} (hb : Calm b) (ha : b = [] → Calm a) : Calm (a ++ b) := by
  intro c hc
  rw [List.getLast?_append] at hc
  cases hlast : b.getLast? with
  | none =>
    rw [hlast] at hc
    exact ha (List.getLast?_eq_none_iff.mp hlast) c hc
  | some d =>
    rw [hlast] at hc
    exact hb c (hlast.trans hc)

/-- A class of characters to which no line break belongs. -/
def Inline (p : Char → Bool) : Prop :=
  p '\n' = false ∧ p '\r' = false

theorem Inline.isNewline {p : Char → Bool} (hp : Inline p) {c : Char} (h : p c = true) : isNewline c = false := by
  cases hc : Text.isNewline c with
  | false => rfl
  | true =>
    rcases Bool.or_eq_true_iff.mp hc with hn | hr
    · rw [eq_of_beq hn, hp.1] at h; cases h
    · rw [eq_of_beq hr, hp.2] at h; cases h

theorem prepend_oneLine {o : Option Cut} {front a b : List Char} (h : o.map (Cut.prepend front) = some (a, b))
    (hfront : OneLine front) (ih : ∀ {a'}, o = some (a', b) → OneLine a') : OneLine a := by
  obtain ⟨⟨a', b'⟩, ho, hcut⟩ := Option.map_eq_some_iff.mp h
  cases hcut
  exact List.forall_mem_append.mpr ⟨hfront, ih ho⟩

theorem digits_oneLine {p : Char → Bool} (hp : Inline p) {cs a b : List Char}
    (h : digits p cs = some (a, b)) : OneLine a := by
  fun_induction digits p cs generalizing a with
  | case1 d _ hd ih => exact prepend_oneLine h (by simp [OneLine, hp.isNewline hd]; rfl) ih
  | case2 => cases h
  | case3 => cases h
  | case4 c _ _ _ hc ih => exact prepend_oneLine h (by simp [OneLine, hp.isNewline hc]) ih
  | case5 => cases h; exact fun _ hc => nomatch hc
  | case6 => cases h; exact fun _ hc => nomatch hc

theorem oneLine_nil : OneLine [] :=
  fun _ hc => nomatch hc

theorem oneLine_cons {c : Char} {cs : List Char} : OneLine (c :: cs) ↔ isNewline c = false ∧ OneLine cs :=
  List.forall_mem_cons

theorem oneLine_append {a b : List Char} : OneLine (a ++ b) ↔ OneLine a ∧ OneLine b :=
  List.forall_mem_append

theorem inline_isDigit : Inline Char.isDigit := ⟨rfl, rfl⟩

theorem exponent_oneLine {cs a b : List Char} (h : exponent cs = some (a, b)) : OneLine a := by
  have hmark {e : Char} (he : e = 'e' ∨ e = 'E') : isNewline e = false := by
    rcases he with rfl | rfl <;> rfl
  have hsign {s : Char} (hs : s = '+' ∨ s = '-') : isNewline s = false := by
    rcases hs with rfl | rfl <;> rfl
  unfold exponent at h
  split at h
  · split at h
    · rename_i he
      split at h
      · rename_i hs
        refine prepend_oneLine h ?_ (digits_oneLine inline_isDigit)
        simp [oneLine_cons, oneLine_nil, hmark he, inline_isDigit.isNewline hs]
      · split at h
        · rename_i hd
          refine prepend_oneLine h ?_ (digits_oneLine inline_isDigit)
          simp [oneLine_cons, oneLine_nil, hmark he, hsign hd.1, inline_isDigit.isNewline hd.2]
        · cases h; exact oneLine_nil
    · cases h; exact oneLine_nil
  · split at h
    · rename_i hd
      cases h
      simp [oneLine_cons, oneLine_nil, hmark hd.1, inline_isDigit.isNewline hd.2]
    · cases h; exact oneLine_nil
  · cases h; exact oneLine_nil

theorem imaginary_oneLine (cs : List Char) : OneLine (imaginary cs).1 := by
  unfold imaginary
  split
  · split
    · rename_i hc
      rcases hc with rfl | rfl <;> exact oneLine_cons.mpr ⟨rfl, oneLine_nil⟩
    · exact oneLine_nil
  · exact oneLine_nil

theorem fraction_oneLine {cs a b : List Char} (h : fraction cs = some (a, b)) : OneLine a := by
  have hpoint : OneLine ['.'] := oneLine_cons.mpr ⟨rfl, oneLine_nil⟩
  unfold fraction at h
  split at h
  · split at h
    · exact prepend_oneLine h hpoint (digits_oneLine inline_isDigit)
    · cases h; exact hpoint
  · cases h; exact hpoint
  · cases h; exact oneLine_nil

theorem decimal_oneLine {cs a b : List Char} (h : decimal cs = some (a, b)) : OneLine a := by
  obtain ⟨whole, part, power, rest₁, rest₂, rest₃, hwhole, hpart, hpower, rfl, rfl⟩ := decimal_eq_some h
  simp only [oneLine_append]
  exact ⟨digits_oneLine inline_isDigit hwhole, ⟨fraction_oneLine hpart, exponent_oneLine hpower⟩,
    imaginary_oneLine _⟩

theorem number_oneLine {cs a b : List Char} (h : number cs = some (a, b)) : OneLine a := by
  have hbase {b l u : Char} (hb : b = l ∨ b = u) (hl : isNewline l = false) (hu : isNewline u = false) :
      OneLine ['0', b] := by
    rcases hb with rfl | rfl
    · exact oneLine_cons.mpr ⟨rfl, oneLine_cons.mpr ⟨hl, oneLine_nil⟩⟩
    · exact oneLine_cons.mpr ⟨rfl, oneLine_cons.mpr ⟨hu, oneLine_nil⟩⟩
  unfold number at h
  split at h
  · split at h
    · exact prepend_oneLine h (hbase ‹_› rfl rfl) fun h => digits_oneLine ⟨rfl, rfl⟩ (someDigits_eq_some h)
    · split at h
      · exact prepend_oneLine h (hbase ‹_› rfl rfl) fun h => digits_oneLine ⟨rfl, rfl⟩ (someDigits_eq_some h)
      · split at h
        · exact prepend_oneLine h (hbase ‹_› rfl rfl) fun h => digits_oneLine ⟨rfl, rfl⟩ (someDigits_eq_some h)
        · exact decimal_oneLine h
  · exact decimal_oneLine h

/-- What is read up to a closing quote ends with it. -/
theorem prepend_getLast? {o : Option Cut} {front a b : List Char} {q : Char}
    (h : o.map (Cut.prepend front) = some (a, b)) (ih : ∀ {a'}, o = some (a', b) → a'.getLast? = some q) :
    a.getLast? = some q := by
  obtain ⟨⟨a', b'⟩, ho, hcut⟩ := Option.map_eq_some_iff.mp h
  cases hcut
  rw [List.getLast?_append, ih ho]
  rfl

theorem closeSingle_getLast? {q : Char} {cs a b : List Char} (h : closeSingle q cs = some (a, b)) :
    a.getLast? = some q := by
  fun_induction closeSingle q cs generalizing a with
  | case1 _ ih => exact prepend_getLast? h ih
  | case2 _ _ _ ih => exact prepend_getLast? h ih
  | case3 => cases h; rfl
  | case4 => cases h
  | case5 _ _ _ _ _ _ ih => exact prepend_getLast? h ih
  | case6 => cases h

theorem closeTriple_getLast? {q : Char} {cs a b : List Char} (h : closeTriple q cs = some (a, b)) :
    a.getLast? = some q := by
  fun_induction closeTriple q cs generalizing a with
  | case1 _ _ ih => exact prepend_getLast? h ih
  | case2 _ _ _ _ _ hq =>
    cases h
    rw [hq.2.2]
    rfl
  | case3 _ _ _ _ _ _ ih => exact prepend_getLast? h ih
  | case4 => cases h

theorem quoted_getLast? {q : Char} {cs a b : List Char} (h : quoted (q :: cs) = some (a, b)) :
    a.getLast? = some q := by
  unfold quoted at h
  split at h
  · rename_i heq
    cases heq
    split at h
    · exact prepend_getLast? h closeTriple_getLast?
    · exact prepend_getLast? h closeSingle_getLast?
  · rename_i heq
    cases heq
    exact prepend_getLast? h closeSingle_getLast?
  · cases h

theorem calm_of_getLast? {cs : List Char} {q : Char} (h : cs.getLast? = some q) (hq : isNewline q = false) :
    Calm cs := by
  intro c hc
  rw [h] at hc
  cases hc
  exact hq

theorem inline_mayContinue : Inline Identifier.mayContinue := by
  constructor <;> decide

theorem operators_oneLine : ∀ op ∈ operators, OneLine op.toList := by
  have hall : (operators.all fun op => op.toList.all fun c => !isNewline c) = true := by decide +kernel
  intro op hop c hc
  simpa using List.all_eq_true.mp (List.all_eq_true.mp hall op hop) c hc

theorem codeLexeme_calm {stack : List Frame} {cs : List Char} {lex : Lexeme}
    (h : codeLexeme stack cs = some lex) (hstack : ∀ f ∈ stack, f.Calm) :
    Calm lex.text ∧ ∀ f ∈ lex.stack, f.Calm := by
  have hquote {front s : List Char} {q : Char} (hlast : s.getLast? = some q) (hq : isNewline q = false) :
      Calm (front ++ s) := by
    refine calm_append (calm_of_getLast? hlast hq) fun hnil => ?_
    rw [hnil] at hlast
    cases hlast
  cases codeRead_of_codeLexeme h with
  | string _ hq hs => exact ⟨hquote (quoted_getLast? hs) hq, hstack⟩
  | template _ _ _ _ hq hlast => exact ⟨hquote hlast hq, List.forall_mem_cons.mpr ⟨hq, hstack⟩⟩
  | name _ =>
    refine ⟨OneLine.calm fun c hc => inline_mayContinue.isNewline ?_, hstack⟩
    exact List.all_eq_true.mp List.all_takeWhile c hc
  | number hs => exact ⟨(number_oneLine hs).calm, hstack⟩
  | mark _ hmark => exact ⟨(oneLine_cons.mpr ⟨(hmark hstack).1, oneLine_nil⟩).calm, (hmark hstack).2⟩
  | operator hs =>
    obtain ⟨_, op, hop, rfl⟩ := operator_eq_some hs
    exact ⟨(operators_oneLine op hop).calm, hstack⟩

theorem literalLexeme_calm {stack : List Frame} {cs : List Char} {lex : Lexeme}
    (h : literalLexeme stack cs = some lex) (hstack : ∀ f ∈ stack, f.Calm) :
    (lex.stack = [] → Calm lex.text) ∧ ∀ f ∈ lex.stack, f.Calm := by
  obtain ⟨⟨q, triple, raw⟩, henclosing, h⟩ := Option.bind_eq_some_iff.mp h
  obtain ⟨⟨text, rest⟩, htext, h⟩ := Option.bind_eq_some_iff.mp h
  dsimp only at h
  split at h
  · cases h
    refine ⟨fun hnil => ?_, hstack⟩
    rw [show stack = [] from hnil] at henclosing
    cases henclosing
  · split at h
    · cases h
      exact ⟨fun hnil => (nomatch hnil), List.forall_mem_cons.mpr ⟨trivial, hstack⟩⟩
    · cases h
      exact ⟨fun _ => (oneLine_cons.mpr ⟨rfl, oneLine_nil⟩).calm, fun f hf => hstack f (by simp [hf])⟩
    · split at h
      · rename_i hcloses
        cases h
        cases henclosing
        exact ⟨fun _ => calm_of_getLast? (closes_getLast? hcloses) (hstack _ List.mem_cons_self),
          fun f hf => hstack f (List.mem_cons_of_mem _ hf)⟩
      · cases h
    · cases h

/-- A lexeme that leaves nothing open does not end with a line break. -/
theorem lexeme_calm {stack : List Frame} {cs : List Char} {lex : Lexeme} (h : lexeme stack cs = some lex)
    (hstack : ∀ f ∈ stack, f.Calm) : (lex.stack = [] → Calm lex.text) ∧ ∀ f ∈ lex.stack, f.Calm := by
  unfold lexeme at h
  split at h
  · exact literalLexeme_calm h hstack
  · obtain ⟨hcalm, hframes⟩ := codeLexeme_calm h hstack
    exact ⟨fun _ => hcalm, hframes⟩

/-- Blanks at the end of a text do not end with a line break. -/
theorem blanks_calm {cs a : List Char} (h : blanks cs = some (a, [])) : Calm cs := by
  have hjoin {o : Option Cut} {front cs a : List Char} (h : o.map (Cut.prepend front) = some (a, []))
      (ih : ∀ {a'}, o = some (a', []) → Calm cs) (hfront : cs = [] → Calm front) : Calm (front ++ cs) := by
    obtain ⟨⟨a', b'⟩, ho, hcut⟩ := Option.map_eq_some_iff.mp h
    cases hcut
    exact calm_append (ih ho) hfront
  fun_induction blanks cs generalizing a with
  | case1 => cases h
  | case2 cs hcs ih => exact hjoin h ih fun hnil => absurd (by simp [hnil]) hcs
  | case3 => cases h
  | case4 cs _ hcs ih => exact hjoin h ih fun hnil => absurd (by simp [hnil]) hcs
  | case5 => cases h
  | case6 cs hcs ih => exact hjoin h ih fun hnil => absurd (by simp [hnil]) hcs
  | case7 => cases h
  | case8 c _ _ _ _ _ hc ih =>
    have hblank : Inline isBlank := ⟨rfl, rfl⟩
    exact hjoin h ih fun _ => (oneLine_cons.mpr ⟨hblank.isNewline hc, oneLine_nil⟩).calm
  | case9 => cases h
  | case10 => exact oneLine_nil.calm

end Conformance.Source
