import Conformance.Proofs.Source.LogicalLine

/-!
# Positions

A position is counted piece by piece, and counting goes wrong only where a piece ends between a carriage return and its
line feed.  No reader of a text cuts it there: `scanLines_flows` says that the lines and tokens of a text are pieces
over which positions can be counted (`Flows.after`), with whatever blanks in front of its logical lines.

What stands between two tokens is white space and comments (`Gap`).
-/

namespace Conformance.Source

open Conformance.Text

/-! ## Cuts -/

/-- The cut does not part a carriage return from its line feed. -/
def Seamless (a b : List Char) : Prop :=
  a.getLast? = some '\r' → b.head? ≠ some '\n'

theorem Seamless.nil (b : List Char) : Seamless [] b := by
  intro h
  cases h

theorem Seamless.of_calm {a : List Char} (h : Calm a) (b : List Char) : Seamless a b := by
  intro hlast
  exact absurd (h _ hlast) (by decide)

theorem Seamless.of_last {a : List Char} {c : Char} (h : a.getLast? = some c) (hc : c ≠ '\r') (b : List Char) :
    Seamless a b := by
  intro hlast
  rw [h] at hlast
  exact absurd (Option.some.inj hlast) hc

theorem Seamless.of_append {a b c : List Char} (h : Seamless (a ++ b) c) : Seamless b c := by
  intro hlast
  apply h
  rw [List.getLast?_append, hlast]
  rfl

/-- A cut after two pieces is seamless if it is so after the second, or after the first where the second is empty. -/
theorem Seamless.append {a b c : List Char} (hb : Seamless b c) (ha : b = [] → Seamless a c) :
    Seamless (a ++ b) c := by
  intro hlast
  by_cases hnil : b = []
  · subst hnil
    rw [List.append_nil] at hlast
    exact ha rfl hlast
  · rw [List.getLast?_append_of_ne_nil a hnil] at hlast
    exact hb hlast

/-- A cut in front of something is seamless in front of its beginning. -/
theorem Seamless.front {a b c : List Char} (h : Seamless a (b ++ c)) : Seamless a b := by
  intro hlast hhead
  apply h hlast
  rw [List.head?_append, hhead]
  rfl

/-! ## Counting -/

theorem not_lineBreak {c : Char} (h : isNewline c = false) : ¬(c = '\n' ∨ c = '\r') := by
  rintro (rfl | rfl)
  · exact absurd h (by decide)
  · exact absurd h (by decide)

namespace Position

/-- Positions are counted piece by piece. -/
theorem after_append {a b : List Char} (h : Seamless a b) (p : Position) : p.after (a ++ b) = (p.after a).after b := by
  fun_induction Position.after p a with
  | case1 p => rfl
  | case2 p cs ih =>
    rw [List.cons_append, List.cons_append, Position.after]
    exact ih (Seamless.of_append (a := ['\r', '\n']) h)
  | case3 p c cs hpair hc ih =>
    have hrest := ih (Seamless.of_append (a := [c]) h)
    rw [List.cons_append, Position.after, if_pos hc, hrest]
    -- the line feed of this carriage return would stand in the other piece
    intro rest hr hfeed
    cases cs with
    | nil =>
      rw [List.nil_append] at hfeed
      subst hr hfeed
      exact h rfl rfl
    | cons d cs =>
      rw [List.cons_append, List.cons.injEq] at hfeed
      exact hpair cs hr (by rw [hfeed.1])
  | case4 p c cs hpair hc ih =>
    have hrest := ih (Seamless.of_append (a := [c]) h)
    rw [List.cons_append, Position.after, if_neg hc, hrest]
    intro rest hr
    exact absurd (.inr hr) hc

/-- On one line only the column changes. -/
theorem after_oneLine {cs : List Char} (h : OneLine cs) (p : Position) :
    p.after cs = ⟨p.line, p.column + cs.length⟩ := by
  induction cs generalizing p with
  | nil => rfl
  | cons c cs ih =>
    obtain ⟨hc, hcs⟩ := oneLine_cons.mp h
    have hplain := not_lineBreak hc
    rw [Position.after, if_neg hplain, ih hcs, List.length_cons, Position.mk.injEq]
    · dsimp only
      omega
    · intro rest hr
      exact absurd (.inr hr) hplain

/-- A line break starts the next line. -/
theorem after_lineBreak {note : List Char} {nl : String} (hnote : OneLine note) (hnl : nl ∈ lineBreaks)
    (p : Position) : p.after (note ++ nl.toList) = ⟨p.line + 1, 1⟩ := by
  rw [after_append (.of_calm hnote.calm _), after_oneLine hnote]
  simp only [lineBreaks, List.mem_cons, List.not_mem_nil, or_false] at hnl
  rcases hnl with rfl | rfl | rfl <;> rfl

end Position

/-! ## Pieces -/

/-- No two of the pieces part a carriage return from its line feed. -/
def Flows : List (List Char) → Prop
  | [] => True
  | a :: ps => Seamless a ps.flatten ∧ Flows ps

theorem Flows.merge {a b : List Char} {ps : List (List Char)} (h : Flows (a :: b :: ps)) : Flows ((a ++ b) :: ps) := by
  obtain ⟨ha, hb, hps⟩ := h
  refine ⟨hb.append fun hnil => ?_, hps⟩
  rwa [hnil, List.flatten_cons, List.nil_append] at ha

theorem Flows.after {a b : List Char} {ps : List (List Char)} (h : Flows (a :: b :: ps)) (p : Position) :
    p.after (a ++ b) = (p.after a).after b := by
  apply Position.after_append
  have ha := h.1
  rw [List.flatten_cons] at ha
  exact ha.front

/-- Pieces may be taken together. -/
theorem Flows.merge_all {a : List Char} {ps qs : List (List Char)} (h : Flows (a :: (ps ++ qs))) :
    Flows ((a ++ ps.flatten) :: qs) ∧ ∀ p : Position, p.after (a ++ ps.flatten) = (p.after a).after ps.flatten := by
  refine ⟨?_, fun p => ?_⟩
  · induction ps generalizing a with
    | nil => rwa [List.flatten_nil, List.append_nil]
    | cons b ps ih =>
      have hmerged := ih h.merge
      rwa [List.flatten_cons, ← List.append_assoc]
  · have ha := h.1
    rw [List.flatten_append] at ha
    exact Position.after_append ha.front p

/-! ## Gaps -/

/-- White space and comments, each comment up to its line break. -/
inductive Gap : List Char → Prop
  | nil : Gap []
  | space {c : Char} {cs : List Char} : (isBlank c || isNewline c || c == '\\') = true → Gap cs → Gap (c :: cs)
  | comment {note cs : List Char} {c : Char} : OneLine note → isNewline c = true → Gap cs →
      Gap ('#' :: note ++ c :: cs)

theorem Gap.append {a b : List Char} (ha : Gap a) (hb : Gap b) : Gap (a ++ b) := by
  induction ha with
  | nil => exact hb
  | space hc _ ih => exact .space hc ih
  | comment hnote hc _ ih =>
    rw [List.append_assoc]
    exact .comment hnote hc ih

theorem Gap.flatten {ps : List (List Char)} (h : ∀ p ∈ ps, Gap p) : Gap ps.flatten := by
  induction ps with
  | nil => exact .nil
  | cons p ps ih =>
    obtain ⟨hp, hps⟩ := List.forall_mem_cons.mp h
    exact hp.append (ih hps)

theorem Gap.of_blank {cs : List Char} (h : ∀ c ∈ cs, isBlank c = true) : Gap cs := by
  induction cs with
  | nil => exact .nil
  | cons c cs ih =>
    obtain ⟨hc, hcs⟩ := List.forall_mem_cons.mp h
    exact .space (by rw [hc]; rfl) (ih hcs)

/-! ## What readers cut -/

/-- A cut after a cut. -/
theorem Seamless.trans {a b c rest : List Char} (ha : Seamless a rest) (hb : Seamless b c) (hcut : b ++ c = rest) :
    Seamless (a ++ b) c := by
  refine hb.append fun hnil => ?_
  rwa [← hcut, hnil, List.nil_append] at ha

theorem lineBreak?_seamless {cs nl rest : List Char} (h : lineBreak? cs = some (nl, rest)) : Seamless nl rest := by
  unfold lineBreak? at h
  split at h
  · cases h
    exact .of_last rfl (by decide) _
  · next hpair =>
    cases h
    intro _ hhead
    obtain ⟨more, rfl⟩ := List.head?_eq_some_iff.mp hhead
    exact hpair more rfl
  · cases h
    exact .of_last rfl (by decide) _
  · cases h

theorem gap_of_mem_lineBreaks {nl : String} (h : nl ∈ lineBreaks) {cs : List Char} (hcs : Gap cs) :
    Gap (nl.toList ++ cs) := by
  simp only [lineBreaks, List.mem_cons, List.not_mem_nil, or_false] at h
  rcases h with rfl | rfl | rfl
  · exact .space rfl hcs
  · exact .space rfl (.space rfl hcs)
  · exact .space rfl hcs

/-- Blanks are a gap, and end where they can be cut off. -/
theorem blanks_cut {cs a b : List Char} (h : blanks cs = some (a, b)) : Seamless a b ∧ Gap a := by
  have hprepend {o : Option Cut} {front rest a : List Char} (h : o.map (Cut.prepend front) = some (a, b))
      (happend : ∀ {a'}, o = some (a', b) → a' ++ b = rest) (ih : ∀ {a'}, o = some (a', b) → Seamless a' b ∧ Gap a')
      (hfront : Seamless front rest) (hgap : Gap front) : Seamless a b ∧ Gap a := by
    obtain ⟨⟨a', b'⟩, ho, hcut⟩ := Option.map_eq_some_iff.mp h
    cases hcut
    obtain ⟨hseam, hrest⟩ := ih ho
    exact ⟨hfront.trans hseam (happend ho), hgap.append hrest⟩
  fun_induction blanks cs generalizing a with
  | case1 => cases h
  | case2 cs _ ih =>
    exact hprepend h blanks_append ih (.of_last rfl (by decide) _) (.space rfl (.space rfl (.space rfl .nil)))
  | case3 => cases h
  | case4 cs hpair _ ih =>
    refine hprepend h blanks_append ih (fun _ hhead => ?_) (.space rfl (.space rfl .nil))
    obtain ⟨more, rfl⟩ := List.head?_eq_some_iff.mp hhead
    exact hpair more rfl
  | case5 => cases h
  | case6 cs _ ih =>
    exact hprepend h blanks_append ih (.of_last rfl (by decide) _) (.space rfl (.space rfl .nil))
  | case7 => cases h
  | case8 c cs _ _ _ _ hc ih =>
    have hblank : Inline isBlank := ⟨rfl, rfl⟩
    have hcalm : Calm [c] := (oneLine_cons.mpr ⟨hblank.isNewline hc, oneLine_nil⟩).calm
    exact hprepend h blanks_append ih (.of_calm hcalm _) (.space (by rw [hc]; rfl) .nil)
  | case9 =>
    cases h
    exact ⟨.nil _, .nil⟩
  | case10 =>
    cases h
    exact ⟨.nil _, .nil⟩

/-- Where no backslash stands among blanks, no line is joined to the next. -/
theorem blanks_isBlank {cs a b : List Char} (h : blanks cs = some (a, b)) (hslash : '\\' ∉ a) :
    ∀ c ∈ a, isBlank c = true := by
  fun_induction blanks cs generalizing a with
  | case1 | case3 | case5 | case7 => cases h
  | case2 | case4 | case6 =>
    obtain ⟨⟨a', b'⟩, -, hcut⟩ := Option.map_eq_some_iff.mp h
    cases hcut
    exact absurd List.mem_cons_self hslash
  | case8 c cs _ _ _ _ hc ih =>
    obtain ⟨⟨a', b'⟩, ho, hcut⟩ := Option.map_eq_some_iff.mp h
    cases hcut
    obtain ⟨-, hrest⟩ := not_or.mp (mt List.mem_cons.mpr hslash)
    exact List.forall_mem_cons.mpr ⟨hc, ih ho hrest⟩
  | case9 | case10 =>
    cases h
    simp

/-- A comment is a gap with the line break after it. -/
theorem comment_gap (cs : List Char) {nl : String} (h : nl ∈ lineBreaks) {more : List Char} (hmore : Gap more) :
    Gap ((comment cs).1 ++ (nl.toList ++ more)) := by
  unfold comment
  split
  · next cs =>
    have hline : OneLine (('#' :: cs).takeWhile (!isNewline ·)) := comment_oneLine ('#' :: cs)
    dsimp only
    rw [List.takeWhile_cons_of_pos (by decide)] at hline ⊢
    have hnote := (oneLine_cons.mp hline).2
    simp only [lineBreaks, List.mem_cons, List.not_mem_nil, or_false] at h
    rcases h with rfl | rfl | rfl
    · exact .comment hnote rfl hmore
    · exact .comment hnote rfl (.space rfl hmore)
    · exact .comment hnote rfl hmore
  · exact gap_of_mem_lineBreaks h hmore

/-- The lines of white space inside brackets are a gap, and end where they can be cut off. -/
theorem breaks_cut {n : Nat} {cs rest : List Char} {bs : List Break} (h : breaks n cs = some (bs, rest)) :
    Seamless (charsOf (bs.flatMap (Break.chunks {} ""))) rest ∧ Gap (charsOf (bs.flatMap (Break.chunks {} ""))) := by
  induction n generalizing cs bs with
  | zero => cases h
  | succ n ih =>
    unfold breaks at h
    dsimp only at h
    split at h
    · cases h
      exact ⟨.nil _, .nil⟩
    · next nl left hbreak =>
      obtain ⟨⟨blank, left₁⟩, hblank, h⟩ := Option.bind_eq_some_iff.mp h
      obtain ⟨⟨more, left₂⟩, hmore, h⟩ := Option.bind_eq_some_iff.mp h
      cases h
      obtain ⟨hseam, hgap⟩ := ih hmore
      obtain ⟨hblankSeam, hblankGap⟩ := blanks_cut hblank
      have hnl := lineBreak?_mem hbreak
      have hchars : charsOf (((
          { comment := String.ofList (comment cs).1
            newline := .own (String.ofList nl)
            blank := String.ofList blank } : Break) :: more).flatMap (Break.chunks {} "")) =
          (comment cs).1 ++ (nl ++ (blank ++ charsOf (more.flatMap (Break.chunks {} "")))) := by
        simp only [List.flatMap_cons, charsOf_append, Break.chunks, charsOf_chunk, charsOf_cons, charsOf_nil,
          Newline.text, String.toList_ofList, List.append_assoc, List.nil_append, Bool.false_eq_true, if_false]
      rw [hchars]
      constructor
      · have hfirst : Seamless ((comment cs).1 ++ nl) left := by
          refine (lineBreak?_seamless hbreak).append fun hnil => ?_
          rw [hnil] at hnl
          exact absurd hnl (by decide)
        have hall := (hfirst.trans hblankSeam (blanks_append hblank)).trans hseam (breaks_append hmore {}).1
        simpa only [List.append_assoc] using hall
      · have hrest := comment_gap cs hnl (hblankGap.append hgap)
        rwa [String.toList_ofList] at hrest

/-- The white space after a token is a gap, and ends where it can be cut off. -/
theorem trivia_cut {stack : List Frame} {cs rest : List Char} {t : Trivia} (h : trivia stack cs = some (t, rest)) :
    Seamless (charsOf (t.chunks {} "")) rest ∧ Gap (charsOf (t.chunks {} "")) := by
  unfold trivia at h
  split at h
  · cases h
    exact ⟨.nil _, .nil⟩
  · obtain ⟨⟨blank, left⟩, hblank, h⟩ := Option.bind_eq_some_iff.mp h
    obtain ⟨hseam, hgap⟩ := blanks_cut hblank
    dsimp only at h
    split at h
    · cases h
      simpa [Trivia.chunks] using And.intro hseam hgap
    · obtain ⟨⟨lines, left₁⟩, hlines, h⟩ := Option.bind_eq_some_iff.mp h
      cases h
      obtain ⟨hlinesSeam, hlinesGap⟩ := breaks_cut hlines
      simp only [Trivia.chunks, charsOf_append, charsOf_chunk, String.toList_ofList]
      exact ⟨hseam.trans hlinesSeam (breaks_append hlines {}).1, hgap.append hlinesGap⟩

theorem closes_head {q c : Char} {triple : Bool} {cs : List Char} (h : closes q triple (c :: cs) = true) : c = q := by
  unfold closes at h
  split at h
  · next heq =>
    cases heq
    cases triple <;> simp_all
  · next heq =>
    cases heq
    simp_all
  · cases h

/-- Literal text ends before a brace or a quote. -/
theorem templateText_head {q : Char} {triple raw inFormat named : Bool} {cs a b : List Char}
    (h : templateText q triple raw inFormat named cs = some (a, b)) (hq : isNewline q = false) :
    b.head? ≠ some '\n' := by
  have hprepend {o : Option Cut} {front a : List Char} (h : o.map (Cut.prepend front) = some (a, b))
      (ih : ∀ {a'}, o = some (a', b) → b.head? ≠ some '\n') : b.head? ≠ some '\n' := by
    obtain ⟨⟨a', b'⟩, ho, hcut⟩ := Option.map_eq_some_iff.mp h
    cases hcut
    exact ih ho
  fun_induction templateText q triple raw inFormat named cs generalizing a with
  | case1 | case2 | case11 => cases h
  -- the text ends before this character
  | case10 named c cs _ hcloses =>
    cases h
    intro hc
    rw [List.head?_cons, closes_head hcloses, Option.some.injEq] at hc
    rw [hc] at hq
    exact absurd hq (by decide)
  | case12 | case14 | case16 | case18 =>
    cases h
    rw [List.head?_cons]
    decide
  -- an escape, a doubled brace or a character of the text
  | case3 _ _ _ _ _ ih | case4 _ _ _ _ _ ih | case5 _ _ _ _ ih | case6 _ _ _ _ ih => exact hprepend h ih
  | case7 _ _ _ ih | case8 _ _ _ _ _ _ _ ih | case9 _ _ _ _ _ _ _ ih => exact hprepend h ih
  | case13 _ _ _ _ _ _ ih | case15 _ _ _ _ _ ih | case17 _ _ _ _ _ _ _ _ ih => exact hprepend h ih
  | case19 _ _ _ _ _ _ _ _ ih => exact hprepend h ih

theorem enclosingText?_calm {stack : List Frame} {q : Char} {triple raw : Bool}
    (h : enclosingText? stack = some (q, triple, raw)) (hstack : ∀ f ∈ stack, f.Calm) : isNewline q = false := by
  induction stack with
  | nil => cases h
  | cons f stack ih =>
    obtain ⟨hf, hrest⟩ := List.forall_mem_cons.mp hstack
    cases f with
    | text quote triple' raw' =>
      cases h
      exact hf
    | bracket close => exact ih h hrest
    | field => exact ih h hrest
    | format => exact ih h hrest

/-- A lexeme ends where it can be cut off. -/
theorem lexeme_seamless {stack : List Frame} {cs : List Char} {lex : Lexeme} (h : lexeme stack cs = some lex)
    (hstack : ∀ f ∈ stack, f.Calm) : Seamless lex.text lex.rest := by
  unfold lexeme at h
  split at h
  · obtain ⟨⟨q, triple, raw⟩, henclosing, h⟩ := Option.bind_eq_some_iff.mp h
    obtain ⟨⟨text, rest⟩, htext, h⟩ := Option.bind_eq_some_iff.mp h
    have hq := enclosingText?_calm henclosing hstack
    dsimp only at h
    split at h
    · cases h
      exact fun _ => templateText_head htext hq
    · split at h
      · cases h
        exact .of_last rfl (by decide) _
      · cases h
        exact .of_last rfl (by decide) _
      · split at h
        · next hcloses =>
          cases h
          exact .of_calm (calm_of_getLast? (closes_getLast? hcloses) hq) _
        · cases h
      · cases h
  · exact .of_calm (codeLexeme_calm h hstack).1 _

/-- A name is a valid one. -/
theorem lexeme_name {stack : List Frame} {cs : List Char} {lex : Lexeme} (h : lexeme stack cs = some lex)
    (hkind : lex.kind = .name) : Identifier.isName lex.text = true := by
  unfold lexeme at h
  split at h
  · obtain ⟨⟨q, triple, raw⟩, -, h⟩ := Option.bind_eq_some_iff.mp h
    obtain ⟨⟨text, rest⟩, -, h⟩ := Option.bind_eq_some_iff.mp h
    dsimp only at h
    split at h
    · cases h
      cases hkind
    · split at h
      · cases h
        cases hkind
      · cases h
        cases hkind
      · split at h
        · cases h
          cases hkind
        · cases h
      · cases h
  · cases codeRead_of_codeLexeme h with
    | name hname => exact hname
    | string => cases hkind
    | template => cases hkind
    | number => cases hkind
    | mark => cases hkind
    | operator => cases hkind

/-! ## Tokens -/

/-- The characters of a token as it is read, with the white space after it. -/
def Token.chars (t : Token) : List Char := charsOf (t.chunks {} "")

theorem Token.chars_eq (t : Token) : t.chars = t.text.toList ++ charsOf (t.after.chunks {} "") := by
  simp only [Token.chars, Token.chunks, charsOf_append, charsOf_chunk]

theorem charsOf_tokens (ts : List Token) : charsOf (ts.flatMap (Token.chunks {} "")) = (ts.map Token.chars).flatten := by
  induction ts with
  | nil => rfl
  | cons t ts ih => rw [List.flatMap_cons, charsOf_append, ih, List.map_cons, List.flatten_cons, Token.chars]

/-- A token as it is read. -/
structure Token.Fresh (t : Token) : Prop where
  raw : t.Raw
  gap : Gap (charsOf (t.after.chunks {} ""))
  identifier : t.kind = .name → Identifier.isIdentifier t.text = true

theorem isContinue_of_isIdentifier {s : String} (h : Identifier.isIdentifier s = true) :
    ∀ c ∈ s.toList, Identifier.isContinue c = true := by
  rw [Identifier.isIdentifier] at h
  cases hs : s.toList with
  | nil => simp
  | cons c cs =>
    rw [hs] at h
    obtain ⟨hstart, hrest⟩ := Bool.and_eq_true_iff.mp h
    exact List.forall_mem_cons.mpr ⟨Identifier.isContinue_of_isStart hstart, List.all_eq_true.mp hrest⟩

/-- A name has characters, all on one line. -/
theorem Token.Fresh.name {t : Token} (h : t.Fresh) (hkind : t.kind = .name) :
    t.text.toList ≠ [] ∧ OneLine t.text.toList := by
  have hidentifier := h.identifier hkind
  have hinline : Inline Identifier.isContinue := by constructor <;> decide
  refine ⟨fun hnil => ?_, fun c hc => hinline.isNewline (isContinue_of_isIdentifier hidentifier c hc)⟩
  rw [Identifier.isIdentifier, hnil] at hidentifier
  cases hidentifier

/-- The tokens of a line and what is left after them can be counted piece by piece. -/
theorem scanTokens_flows {n : Nat} {stack : List Frame} {cs rest : List Char} {ts : List Token}
    (h : scanTokens n stack cs = some (ts, rest)) (hstack : ∀ f ∈ stack, f.Calm) :
    Flows (ts.map Token.chars ++ [rest]) ∧ ∀ t ∈ ts, t.Fresh := by
  induction n generalizing stack cs ts with
  | zero => cases h
  | succ n ih =>
    unfold scanTokens at h
    split at h
    · cases h
      refine ⟨⟨fun _ hhead => ?_, trivial⟩, by simp⟩
      cases hhead
    · obtain ⟨lex, hlex, h⟩ := Option.bind_eq_some_iff.mp h
      obtain ⟨⟨after, rest₁⟩, hafter, h⟩ := Option.bind_eq_some_iff.mp h
      obtain ⟨⟨more, rest₂⟩, hmore, h⟩ := Option.bind_eq_some_iff.mp h
      cases h
      obtain ⟨hspaceSeam, hspaceGap⟩ := trivia_cut hafter
      obtain ⟨hflows, hfresh⟩ := ih hmore (lexeme_calm hlex hstack).2
      have hrest : (more.map Token.chars ++ [rest]).flatten = rest₁ := by
        rw [List.flatten_append, ← charsOf_tokens, List.flatten_cons, List.flatten_nil, List.append_nil]
        exact (scanTokens_append hmore {}).1
      have hseam := (lexeme_seamless hlex hstack).trans hspaceSeam (trivia_append hafter {}).1
      refine ⟨⟨?_, hflows⟩, List.forall_mem_cons.mpr ⟨⟨(trivia_append hafter {}).2, hspaceGap, ?_⟩, hfresh⟩⟩
      · show Seamless _ (more.map Token.chars ++ [rest]).flatten
        rw [hrest, Token.chars_eq, String.toList_ofList]
        exact hseam
      · rw [Identifier.isIdentifier, String.toList_ofList]
        exact lexeme_name hlex

/-! ## Lines -/

/-- The characters of a line without tokens as it is read. -/
def Line.chars (l : Line) : List Char := (l.stretch "").chars {}

/-- The characters of the end of a line as it is read. -/
def LineEnd.chars (e : LineEnd) : List Char := e.comment.toList ++ (e.newline.text {}).toList

/-- The pieces of a logical line, with the given blanks in front of its first token. -/
def LogicalLine.pieces (l : LogicalLine) (blank : List Char) : List (List Char) :=
  l.lead.map Line.chars ++ blank :: (l.tokens.map Token.chars ++ [l.stop.chars])

/-- The pieces of logical lines, each with its blanks as they are given. -/
def piecesOf (lines : List LogicalLine) (blanks : List (List Char)) : List (List Char) :=
  (List.zipWith LogicalLine.pieces lines blanks).flatten

theorem piecesOf_cons (l : LogicalLine) (lines : List LogicalLine) (b : List Char) (bs : List (List Char)) :
    piecesOf (l :: lines) (b :: bs) = l.pieces b ++ piecesOf lines bs := rfl

theorem lineEnd?_append {cs rest : List Char} {stop : LineEnd} (h : lineEnd? cs = some (stop, rest)) :
    stop.chars ++ rest = cs := by
  obtain ⟨nl, hnl, htext, -⟩ := lineEnd?_eq_some h
  rw [LineEnd.chars, hnl]
  exact htext

/-- The end of a line ends where it can be cut off. -/
theorem lineEnd?_seamless {cs rest : List Char} {stop : LineEnd} (h : lineEnd? cs = some (stop, rest)) :
    Seamless stop.chars rest := by
  have hline := comment_oneLine cs
  unfold lineEnd? at h
  dsimp only at h
  split at h
  · next nl left hbreak =>
    cases h
    simp only [LineEnd.chars, Newline.text, String.toList_ofList]
    refine (lineBreak?_seamless hbreak).append fun _ => .of_calm hline.calm _
  · split at h
    · cases h
      intro _ hhead
      cases hhead
    · cases h

/-- A line break is the end of a line. -/
theorem lineEnd?_of_feed {cs : List Char} (h : cs.head? = some '\n') : lineEnd? cs ≠ none := by
  obtain ⟨rest, rfl⟩ := List.head?_eq_some_iff.mp h
  intro hnone
  cases hnone

/-- The first character is that of the first piece, if there is any in it. -/
theorem head?_append_mono {a b c : List Char} {x : Char} (hbc : b.head? = some x → c.head? = some x)
    (h : (a ++ b).head? = some x) : (a ++ c).head? = some x := by
  cases a with
  | nil => exact hbc h
  | cons y a => exact h

/-- Pieces that flow into a text flow into pieces that start like it. -/
theorem Flows.join {ps qs : List (List Char)} {rest : List Char} (h : Flows (ps ++ [rest])) (hqs : Flows qs)
    (hhead : qs.flatten.head? = some '\n' → rest.head? = some '\n') : Flows (ps ++ qs) := by
  induction ps with
  | nil => exact hqs
  | cons a ps ih =>
    refine ⟨fun hlast hfeed => ?_, ih h.2⟩
    apply h.1 hlast
    have hfeed : (ps ++ qs).flatten.head? = some '\n' := hfeed
    rw [List.flatten_append] at hfeed
    show (ps ++ [rest]).flatten.head? = some '\n'
    rw [List.flatten_append, List.flatten_cons, List.flatten_nil, List.append_nil]
    exact head?_append_mono hhead hfeed

theorem head?_ne_feed_of_isBlank {b : List Char} (h : ∀ c ∈ b, isBlank c = true) : b.head? ≠ some '\n' := by
  intro hhead
  have hfeed := h _ (List.mem_of_mem_head? hhead)
  exact absurd hfeed (by decide)

theorem oneLine_of_isBlank {b : List Char} (h : ∀ c ∈ b, isBlank c = true) : OneLine b := by
  have hblank : Inline isBlank := ⟨rfl, rfl⟩
  exact fun c hc => hblank.isNewline (h c hc)

/-- A text can be counted line by line and token by token, whatever blanks stand in front of its logical lines. -/
theorem scanLines_flows {n : Nat} {lead last : List Line} {cs : List Char} {lines : List LogicalLine}
    (h : scanLines n lead cs = some (lines, last)) {bs : List (List Char)} (hlength : lines.length = bs.length)
    (hbs : ∀ b ∈ bs, ∀ c ∈ b, isBlank c = true) :
    ∃ ps, piecesOf lines bs ++ last.map Line.chars = lead.reverse.map Line.chars ++ ps ∧ Flows ps ∧
      (ps.flatten.head? = some '\n' → cs.head? = some '\n') := by
  induction n generalizing lead cs lines bs with
  | zero => cases h
  | succ n ih =>
    obtain ⟨rfl, rfl, rfl⟩ | ⟨hne, blank, rest, stop, left, hblank, hstop, hmore⟩ |
      ⟨hne, blank, rest, tokens, beyond, stop, left, more, hblank, hnone, htokens, hstop, hmore, rfl⟩ :=
      scanLines_cases h
    · refine ⟨[], ?_, trivial, id⟩
      rw [List.append_nil]
      rfl
    · -- a line without tokens is a piece
      obtain ⟨ps, hps, hflows, hhead⟩ := ih hmore hlength hbs
      have hchars : Line.chars { blank := String.ofList blank, comment := stop.comment, newline := stop.newline } =
          blank ++ stop.chars := by
        simp [Line.chars, Line.stretch, Stretch.chars, LineEnd.chars]
      have hcs : blank ++ (stop.chars ++ left) = cs := by
        rw [lineEnd?_append hstop, blanks_append hblank]
      have hcut : Seamless (blank ++ stop.chars) left :=
        (blanks_cut hblank).1.trans (lineEnd?_seamless hstop) (lineEnd?_append hstop)
      refine ⟨(blank ++ stop.chars) :: ps, ?_, ⟨fun hlast hfeed => hcut hlast (hhead hfeed), hflows⟩, fun hfeed => ?_⟩
      · rw [hps, List.reverse_cons, List.map_append, List.map_singleton, hchars, List.append_assoc]
        rfl
      · rw [← hcs, ← List.append_assoc]
        exact head?_append_mono hhead hfeed
    · obtain ⟨b, bs, rfl⟩ := List.exists_cons_of_length_eq_add_one hlength.symm
      obtain ⟨hb, hbs⟩ := List.forall_mem_cons.mp hbs
      obtain ⟨ps, hps, hflows, hhead⟩ := ih hmore (Nat.succ.inj hlength) hbs
      obtain ⟨htokensFlow, -⟩ := scanTokens_flows htokens (by simp)
      have hcut := lineEnd?_seamless hstop
      have hends : Flows (stop.chars :: ps) := ⟨fun hlast hfeed => hcut hlast (hhead hfeed), hflows⟩
      have hbeyond : (stop.chars :: ps).flatten.head? = some '\n' → beyond.head? = some '\n' := by
        intro hfeed
        rw [← lineEnd?_append hstop]
        exact head?_append_mono hhead hfeed
      have hrest : (tokens.map Token.chars ++ stop.chars :: ps).flatten.head? = some '\n' →
          rest.head? = some '\n' := by
        intro hfeed
        rw [List.flatten_append, ← charsOf_tokens] at hfeed
        rw [← (scanTokens_append htokens {}).1]
        exact head?_append_mono hbeyond hfeed
      have hline := htokensFlow.join hends hbeyond
      refine ⟨b :: (tokens.map Token.chars ++ stop.chars :: ps), ?_, ⟨?_, hline⟩, fun hfeed => ?_⟩
      · rw [List.reverse_nil, List.map_nil, List.nil_append] at hps
        rw [piecesOf_cons, List.append_assoc, hps]
        simp [LogicalLine.pieces]
      · exact .of_calm (oneLine_of_isBlank hb).calm _
      · -- a logical line does not start with a line feed
        rw [List.flatten_cons] at hfeed
        cases b with
        | nil => exact absurd hnone (lineEnd?_of_feed (hrest hfeed))
        | cons c b =>
          have hfeed : (c :: b).head? = some '\n' := hfeed
          exact absurd hfeed (head?_ne_feed_of_isBlank hb)

/-! ## What stands between tokens -/

/-- The line ends with a line break of its own. -/
def LineEnd.Closed (e : LineEnd) : Prop :=
  ∃ nl ∈ lineBreaks, e.newline = .own nl ∧ OneLine e.comment.toList ∧ Gap e.chars

/-- A line without tokens as it is read from between logical lines. -/
def Line.Spaced (l : Line) : Prop :=
  Gap l.chars ∧ ∃ nl, l.newline = .own nl

/-- A logical line in which only white space and comments stand around the tokens. -/
structure LogicalLine.Spaced (l : LogicalLine) : Prop where
  margin : ∀ blank, l.margin = some blank → ∀ c ∈ blank.toList, isBlank c = true
  lead : ∀ e ∈ l.lead, e.Spaced
  tokens : ∀ t ∈ l.tokens, t.Fresh

/-- All lines but the last one end with a line break. -/
def Ended : List LogicalLine → Prop
  | [] => True
  | l :: lines => (lines ≠ [] → l.stop.Closed) ∧ Ended lines

theorem lineEnd?_closed {cs rest : List Char} {stop : LineEnd} (h : lineEnd? cs = some (stop, rest)) :
    stop.Closed ∨ rest = [] := by
  have hline := comment_oneLine cs
  have hgap := fun {nl} (hnl : nl ∈ lineBreaks) => comment_gap cs hnl .nil
  unfold lineEnd? at h
  dsimp only at h
  split at h
  · next nl left hbreak =>
    cases h
    refine .inl ⟨_, lineBreak?_mem hbreak, rfl, by simpa using hline, ?_⟩
    simpa [LineEnd.chars, Newline.text] using hgap (lineBreak?_mem hbreak)
  · split at h
    · cases h
      exact .inr rfl
    · cases h

theorem scanLines_nil {n : Nat} {lead last : List Line} {lines : List LogicalLine}
    (h : scanLines n lead [] = some (lines, last)) : lines = [] := by
  cases n with
  | zero => cases h
  | succ n =>
    cases h
    rfl

/-- The lines of a text are spaced, and all but the last one end with a line break. -/
theorem scanLines_spaced {n : Nat} {lead last : List Line} {cs : List Char} {lines : List LogicalLine}
    (h : scanLines n lead cs = some (lines, last)) (hlead : ∀ e ∈ lead, e.Spaced) :
    (∀ l ∈ lines, l.Spaced) ∧ Ended lines := by
  induction n generalizing lead cs lines with
  | zero => cases h
  | succ n ih =>
    obtain ⟨-, rfl, -⟩ | ⟨-, blank, rest, stop, left, hblank, hstop, hmore⟩ |
      ⟨-, blank, rest, tokens, beyond, stop, left, more, hblank, -, htokens, hstop, hmore, rfl⟩ := scanLines_cases h
    · exact ⟨by simp, trivial⟩
    · rcases lineEnd?_closed hstop with ⟨nl, -, hnl, -, hgap⟩ | rfl
      · refine ih hmore (List.forall_mem_cons.mpr ⟨⟨?_, nl, hnl⟩, hlead⟩)
        have hline := (blanks_cut hblank).2.append hgap
        simpa [Line.chars, Line.stretch, Stretch.chars, LineEnd.chars] using hline
      · rw [scanLines_nil hmore]
        exact ⟨by simp, trivial⟩
    · obtain ⟨hspaced, hended⟩ := ih hmore (by simp)
      refine ⟨List.forall_mem_cons.mpr ⟨⟨?_, ?_, ?_⟩, hspaced⟩, ⟨fun hne => ?_, hended⟩⟩
      · intro margin hmargin
        by_cases hslash : blank.contains '\\' = true
        · rw [if_pos hslash] at hmargin
          cases hmargin
        · rw [if_neg hslash] at hmargin
          cases hmargin
          rw [String.toList_ofList]
          exact blanks_isBlank hblank (by simpa using hslash)
      · intro e he
        exact hlead e (List.mem_reverse.mp he)
      · exact (scanTokens_flows htokens (by simp)).2
      · refine (lineEnd?_closed hstop).resolve_right ?_
        rintro rfl
        exact hne (scanLines_nil hmore)

end Conformance.Source
