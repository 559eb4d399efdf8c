import Mathlib
import Conformance.Console.Markup

/-!
# Escaped text is read back as text

Markup is read from left to right into characters and tags (`pieces`).  Escaping writes the pieces of a text again, with
more backslashes before its tags (`written`).  Behind such a text, up to a bracket that opens a tag, the same pieces are
read again, with the new numbers of backslashes (`pieces_written_append`).  Only backslashes at the end are not the
text's own any more: they are counted as those of the tag behind it.
-/

namespace Conformance.Markup

variable {cs body rest : List Char} {c d : Char} {n : Nat}

/-! ## Tags -/

/-- What can stand in a tag: a text without brackets that starts like a tag. -/
structure TagText (body : List Char) : Prop where
  starts : body.head?.any startsTag = true
  inside : ∀ c ∈ body, c ≠ '[' ∧ c ≠ ']'

/-- A bracket before the characters opens a tag. -/
def OpensTag (cs : List Char) : Prop := ∃ body rest, TagText body ∧ cs = body ++ ']' :: rest

theorem tagBody?_eq_some_iff : tagBody? cs = some (body, rest) ↔ TagText body ∧ cs = body ++ ']' :: rest := by
  unfold tagBody?
  dsimp only
  constructor
  · intro h
    split at h
    · next after hafter =>
      split at h
      · next hstarts =>
        cases h
        refine ⟨⟨hstarts, fun c hc => ?_⟩, ?_⟩
        · simpa using List.mem_takeWhile_imp hc
        · rw [← hafter, List.takeWhile_append_dropWhile]
      · cases h
    · cases h
  · rintro ⟨hbody, rfl⟩
    have hinside : ∀ c ∈ body, (c != '[' && c != ']') = true := by simpa using hbody.inside
    have htake : (body ++ ']' :: rest).takeWhile (fun c => c != '[' && c != ']') = body := by
      rw [List.takeWhile_append_of_pos hinside, List.takeWhile_cons_of_neg (by decide), List.append_nil]
    have hdrop : (body ++ ']' :: rest).dropWhile (fun c => c != '[' && c != ']') = ']' :: rest := by
      rw [List.dropWhile_append_of_pos hinside, List.dropWhile_cons_of_neg (by decide)]
    simp only [htake, hdrop, hbody.starts, if_true]

theorem tagBody?_eq_none_iff : tagBody? cs = none ↔ ¬ OpensTag cs := by
  rw [Option.eq_none_iff_forall_ne_some]
  constructor
  · rintro h ⟨body, rest, hopens⟩
    exact h _ (tagBody?_eq_some_iff.mpr hopens)
  · rintro h ⟨body, rest⟩ hsome
    exact h ⟨body, rest, tagBody?_eq_some_iff.mp hsome⟩

/-! ## Runs of backslashes -/

/-- Characters are backslashes and then none. -/
theorem exists_run (cs : List Char) : ∃ n rest, cs = List.replicate n '\\' ++ rest ∧ rest.head? ≠ some '\\' := by
  refine ⟨(cs.takeWhile (· == '\\')).length, cs.dropWhile (· == '\\'), ?_, fun h => ?_⟩
  · have hslashes : cs.takeWhile (· == '\\') = List.replicate (cs.takeWhile (· == '\\')).length '\\' :=
      List.eq_replicate_iff.mpr ⟨rfl, fun c hc => by simpa using List.mem_takeWhile_imp hc⟩
    rw [← hslashes, List.takeWhile_append_dropWhile]
  · have hnot := List.head?_dropWhile_not (· == '\\') cs
    rw [h] at hnot
    exact absurd hnot (by decide)

theorem dropWhile_run (hd : d ≠ '\\') (n : Nat) (cs : List Char) :
    (List.replicate n '\\' ++ d :: cs).dropWhile (· == '\\') = d :: cs := by
  rw [List.dropWhile_append_of_pos (by simp), List.dropWhile_cons_of_neg (by simpa using hd)]

theorem takeWhile_run (hd : d ≠ '\\') (n : Nat) (cs : List Char) :
    (List.replicate n '\\' ++ d :: cs).takeWhile (· == '\\') = List.replicate n '\\' := by
  rw [List.takeWhile_append_of_pos (by simp), List.takeWhile_cons_of_neg (by simpa using hd), List.append_nil]

/-- Up to a bracket without one before it there are only backslashes. -/
theorem eq_slash_of_run_eq {v u w : List Char} {x : Char} (h : List.replicate n '\\' ++ '[' :: v = u ++ x :: w)
    (hu : '[' ∉ u) (hx : x ≠ '[') : x = '\\' := by
  have hsplit : List.replicate n '\\' ++ '[' :: v = (u ++ [x]) ++ w := by rw [h]; simp
  have hnot : '[' ∉ u ++ [x] := by simp [hu, Ne.symm hx]
  rcases List.append_eq_append_iff.mp hsplit with ⟨a, ha, hv⟩ | ⟨a, ha, -⟩
  · cases a with
    | nil =>
      have hmem : x ∈ List.replicate n '\\' := by
        rw [List.append_nil] at ha
        simp [← ha]
      exact List.eq_of_mem_replicate hmem
    | cons b a =>
      obtain ⟨rfl, -⟩ := List.cons_eq_cons.mp hv
      exact absurd (by simp [ha]) hnot
  · exact List.eq_of_mem_replicate (by rw [ha]; simp)

theorem tagAt?_eq_some_iff : tagAt? cs = some (n, body, rest) ↔
    TagText body ∧ cs = List.replicate n '\\' ++ '[' :: (body ++ ']' :: rest) := by
  constructor
  · intro h
    obtain ⟨k, tail, rfl, htail⟩ := exists_run cs
    cases tail with
    | nil => simp [tagAt?] at h
    | cons d tail =>
      have hd : d ≠ '\\' := by simpa using htail
      unfold tagAt? at h
      rw [dropWhile_run hd, takeWhile_run hd] at h
      split at h
      · next inside heq =>
        obtain ⟨rfl, rfl⟩ := List.cons_eq_cons.mp heq
        obtain ⟨⟨body', rest'⟩, hbody, hsome⟩ := Option.map_eq_some_iff.mp h
        rw [List.length_replicate] at hsome
        cases hsome
        obtain ⟨htext, rfl⟩ := tagBody?_eq_some_iff.mp hbody
        exact ⟨htext, rfl⟩
      · cases h
  · rintro ⟨hbody, rfl⟩
    have hbracket : '[' ≠ '\\' := by decide
    unfold tagAt?
    rw [dropWhile_run hbracket, takeWhile_run hbracket]
    simp only [tagBody?_eq_some_iff.mpr ⟨hbody, rfl⟩, Option.map_some, List.length_replicate]

theorem tagAt?_run_eq_none_iff (hd : d ≠ '\\') :
    tagAt? (List.replicate n '\\' ++ d :: cs) = none ↔ (d = '[' → ¬ OpensTag cs) := by
  unfold tagAt?
  rw [dropWhile_run hd]
  split
  · next inside heq =>
    obtain ⟨rfl, rfl⟩ := List.cons_eq_cons.mp heq
    simp [tagBody?_eq_none_iff]
  · next hno =>
    simp only [true_iff]
    rintro rfl
    exact absurd rfl (hno cs)

theorem tagAt?_slashes (n : Nat) : tagAt? (List.replicate n '\\') = none := by
  simp [tagAt?]

/-- Characters that do not end in a backslash are a run and a character that is no backslash before the rest. -/
theorem exists_run_cons (h : (c :: cs).getLast? ≠ some '\\') :
    ∃ n d rest, c :: cs = List.replicate n '\\' ++ d :: rest ∧ d ≠ '\\' := by
  obtain ⟨n, tail, heq, htail⟩ := exists_run (c :: cs)
  cases tail with
  | nil =>
    rw [List.append_nil] at heq
    cases n with
    | zero => cases heq
    | succ n =>
      rw [heq, List.getLast?_replicate] at h
      exact absurd rfl h
  | cons d rest => exact ⟨n, d, rest, heq, by simpa using htail⟩

/-! ## Writing the pieces again -/

theorem pieces_of_tag (h : tagAt? cs = some (n, body, rest)) : pieces cs = .tag n body :: pieces rest := by
  cases cs with
  | nil => cases h
  | cons c cs =>
    rw [pieces]
    split
    · next heq =>
      rw [h] at heq
      cases heq
      rfl
    · next heq =>
      rw [h] at heq
      cases heq

theorem pieces_of_none (h : tagAt? (c :: cs) = none) : pieces (c :: cs) = .plain c :: pieces cs := by
  rw [pieces]
  split
  · next heq =>
    rw [h] at heq
    cases heq
  · rfl

/-- The characters of a piece. -/
def Piece.chars : Piece → List Char
  | plain c => [c]
  | tag n body => List.replicate n '\\' ++ '[' :: body ++ [']']

/-- A piece with another number of backslashes before its tag. -/
def Piece.slashed (s : Nat → Nat) : Piece → Piece
  | plain c => plain c
  | tag n body => tag (s n) body

theorem Piece.slashed_id : Piece.slashed id = id := by
  funext p
  cases p <;> rfl

/-- Characters with other numbers of backslashes before their tags. -/
def written (s : Nat → Nat) (cs : List Char) : List Char :=
  (pieces cs).flatMap fun p => (p.slashed s).chars

variable {s : Nat → Nat}

theorem written_of_tag (h : tagAt? cs = some (n, body, rest)) :
    written s cs = List.replicate (s n) '\\' ++ '[' :: (body ++ ']' :: written s rest) := by
  simp [written, pieces_of_tag h, Piece.slashed, Piece.chars]

theorem written_of_none (h : tagAt? (c :: cs) = none) : written s (c :: cs) = c :: written s cs := by
  simp [written, pieces_of_none h, Piece.slashed, Piece.chars]

@[simp]
theorem written_nil : written s [] = [] := by simp [written, pieces]

/-- The pieces of a text are the text. -/
theorem written_id (cs : List Char) : written id cs = cs := by
  induction cs using pieces.induct with
  | case1 => simp
  | case2 c cs n body rest h ih =>
    rw [written_of_tag h, ih]
    exact (tagAt?_eq_some_iff.mp h).2.symm
  | case3 c cs h ih => rw [written_of_none h, ih]

theorem flatMap_chars_pieces (cs : List Char) : (pieces cs).flatMap Piece.chars = cs := by
  simpa [written, Piece.slashed_id] using written_id cs

theorem flatMap_escaped (cs : List Char) : (pieces cs).flatMap Piece.escaped = written (2 * · + 1) cs := by
  refine List.flatMap_congr fun p _ => ?_
  cases p <;> rfl

/-- A run that is not before a tag is written as it stands. -/
theorem written_run (hd : d ≠ '\\') (hopens : d = '[' → ¬ OpensTag cs) (n : Nat) :
    written s (List.replicate n '\\' ++ d :: cs) = List.replicate n '\\' ++ d :: written s cs := by
  have hnone : ∀ k, tagAt? (List.replicate k '\\' ++ d :: cs) = none :=
    fun k => (tagAt?_run_eq_none_iff hd).mpr hopens
  induction n with
  | zero => exact written_of_none (hnone 0)
  | succ n ih =>
    rw [List.replicate_succ, List.cons_append, List.cons_append, ← ih]
    exact written_of_none (hnone (n + 1))

/-- Behind a written text the pieces are read again, if what follows it opens no tag in the text.  The induction is on
the pieces; a text that ends in a backslash could be read as part of a tag that follows. -/
theorem pieces_written_append {tail : List Char}
    (htail : ∀ cs, ¬ OpensTag cs → ¬ OpensTag (written s cs ++ tail)) (hlast : cs.getLast? ≠ some '\\') :
    pieces (written s cs ++ tail) = (pieces cs).map (Piece.slashed s) ++ pieces tail := by
  induction cs using pieces.induct with
  | case1 => simp [pieces]
  | case2 c cs n body rest h ih =>
    obtain ⟨hbody, heq⟩ := tagAt?_eq_some_iff.mp h
    have hrest : rest.getLast? ≠ some '\\' := by
      intro hslash
      rw [heq] at hlast
      simp [List.getLast?_append, List.getLast?_cons, hslash] at hlast
    have hagain : tagAt? (written s (c :: cs) ++ tail) = some (s n, body, written s rest ++ tail) :=
      tagAt?_eq_some_iff.mpr ⟨hbody, by rw [written_of_tag h]; simp⟩
    rw [pieces_of_tag hagain, ih hrest, pieces_of_tag h]
    rfl
  | case3 c cs h ih =>
    obtain ⟨n, d, rest, heq, hd⟩ := exists_run_cons hlast
    have hopens : d = '[' → ¬ OpensTag rest := by
      rw [heq] at h
      exact (tagAt?_run_eq_none_iff hd).mp h
    have hagain : tagAt? (c :: (written s cs ++ tail)) = none := by
      rw [← List.cons_append, ← written_of_none h, heq, written_run hd hopens, List.append_assoc, List.cons_append]
      exact (tagAt?_run_eq_none_iff hd).mpr fun hbracket => htail rest (hopens hbracket)
    have hcs : cs.getLast? ≠ some '\\' := by
      intro hslash
      simp [List.getLast?_cons, hslash] at hlast
    rw [written_of_none h, List.cons_append, pieces_of_none hagain, ih hcs, pieces_of_none h]
    rfl

/-! ## What may follow a text -/

/-- Up to a character before which no bracket stands, a text is written as it is. -/
theorem of_written_eq {u w : List Char} {x : Char} (hu : '[' ∉ u) (hx : x ≠ '[') (hslash : x ≠ '\\')
    (h : written s cs = u ++ x :: w) : ∃ w', cs = u ++ x :: w' := by
  induction cs using pieces.induct generalizing u with
  | case1 => simp at h
  | case2 c cs n body rest htag ih =>
    rw [written_of_tag htag] at h
    exact absurd (eq_slash_of_run_eq h hu hx) hslash
  | case3 c cs hnone ih =>
    rw [written_of_none hnone] at h
    cases u with
    | nil =>
      obtain ⟨rfl, -⟩ := List.cons_eq_cons.mp h
      exact ⟨cs, rfl⟩
    | cons y u =>
      obtain ⟨rfl, hcs⟩ := List.cons_eq_cons.mp h
      obtain ⟨w', rfl⟩ := ih (fun hmem => hu (List.mem_cons_of_mem _ hmem)) hcs
      exact ⟨w', rfl⟩

/-- A bracket behind a written text, with backslashes before it, opens no tag in the text. -/
theorem not_opensTag_written_bracket (h : ¬ OpensTag cs) (n : Nat) (z : List Char) :
    ¬ OpensTag (written s cs ++ (List.replicate n '\\' ++ '[' :: z)) := by
  rintro ⟨body, rest, hbody, heq⟩
  have hno : '[' ∉ body := fun hmem => (hbody.inside _ hmem).1 rfl
  rcases List.append_eq_append_iff.mp heq with ⟨a, rfl, htail⟩ | ⟨a, hwritten, htail⟩
  · have ha : '[' ∉ a := fun hmem => hno (List.mem_append_right _ hmem)
    exact absurd (eq_slash_of_run_eq htail ha (by decide)) (by decide)
  · cases a with
    | nil => exact absurd (eq_slash_of_run_eq (u := []) htail.symm (by simp) (by decide)) (by decide)
    | cons b a =>
      obtain ⟨rfl, -⟩ := List.cons_eq_cons.mp htail
      obtain ⟨w, hcs⟩ := of_written_eq hno (by decide) (by decide) hwritten
      exact h ⟨body, w, hbody, hcs⟩

/-- Backslashes behind a text open no tag in it. -/
theorem not_opensTag_append_slashes (h : ¬ OpensTag cs) (n : Nat) : ¬ OpensTag (cs ++ List.replicate n '\\') := by
  rintro ⟨body, rest, hbody, heq⟩
  have hno : ']' ∉ List.replicate n '\\' := by simp
  rcases List.append_eq_append_iff.mp heq with ⟨a, -, htail⟩ | ⟨a, hcs, htail⟩
  · exact hno (by simp [htail])
  · cases a with
    | nil => exact hno (by rw [List.nil_append] at htail; simp [← htail])
    | cons b a =>
      obtain ⟨rfl, -⟩ := List.cons_eq_cons.mp htail
      exact h ⟨body, a, hbody, hcs⟩

/-! ## Backslashes at the end -/

/-- A text without the backslashes at its end. -/
def trunk (cs : List Char) : List Char := cs.rdropWhile (· == '\\')

/-- How many backslashes a text ends in. -/
def endSlashes (cs : List Char) : Nat := (cs.rtakeWhile (· == '\\')).length

theorem trunk_append_slashes (cs : List Char) : trunk cs ++ List.replicate (endSlashes cs) '\\' = cs := by
  have hslashes : List.replicate (endSlashes cs) '\\' = cs.rtakeWhile (· == '\\') :=
    (List.eq_replicate_iff.mpr ⟨rfl, fun c hc => by simpa using List.mem_rtakeWhile_imp hc⟩).symm
  rw [hslashes, trunk, List.rdropWhile_append_rtakeWhile]

theorem getLast?_trunk (cs : List Char) : (trunk cs).getLast? ≠ some '\\' := by
  intro h
  rw [trunk, List.rdropWhile, List.getLast?_reverse] at h
  have hnot := List.head?_dropWhile_not (· == '\\') cs.reverse
  rw [h] at hnot
  exact absurd hnot (by decide)

theorem pieces_slashes (n : Nat) : pieces (List.replicate n '\\') = List.replicate n (.plain '\\') := by
  induction n with
  | zero => simp [pieces]
  | succ n ih =>
    rw [List.replicate_succ, pieces_of_none (tagAt?_slashes (n + 1)), ih, List.replicate_succ]

theorem pieces_eq_trunk (cs : List Char) :
    pieces cs = pieces (trunk cs) ++ List.replicate (endSlashes cs) (.plain '\\') := by
  have htail : ∀ cs', ¬ OpensTag cs' → ¬ OpensTag (written id cs' ++ List.replicate (endSlashes cs) '\\') := by
    intro cs' h
    rw [written_id]
    exact not_opensTag_append_slashes h _
  have hpieces := pieces_written_append htail (getLast?_trunk cs)
  rw [written_id, trunk_append_slashes, pieces_slashes, Piece.slashed_id, List.map_id] at hpieces
  exact hpieces

@[simp]
theorem getLast?_written (cs : List Char) : (written s cs).getLast? = cs.getLast? := by
  induction cs using pieces.induct with
  | case1 => simp
  | case2 c cs n body rest h ih =>
    rw [written_of_tag h, (tagAt?_eq_some_iff.mp h).2]
    simp [List.getLast?_append, List.getLast?_cons, ih]
  | case3 c cs h ih => rw [written_of_none h, List.getLast?_cons, List.getLast?_cons, ih]

/-- How many backslashes a text with a number of them at its end is escaped with. -/
def closedSlashes (n : Nat) : Nat := if n = 1 then 2 else n

theorem closeSlash_append (h : cs.getLast? ≠ some '\\') (n : Nat) :
    closeSlash (cs ++ List.replicate n '\\') = cs ++ List.replicate (closedSlashes n) '\\' := by
  -- `closeSlash` looks at the text backwards
  obtain ⟨r, rfl⟩ : ∃ r, cs = r.reverse := ⟨cs.reverse, by simp⟩
  have hhead : r.head? ≠ some '\\' := by simpa using h
  have hreverse : (r.reverse ++ List.replicate n '\\').reverse = List.replicate n '\\' ++ r := by simp
  unfold closeSlash
  rw [hreverse]
  rcases n with _ | _ | n
  · rcases r with _ | ⟨c, r⟩
    · rfl
    · have hc : c ≠ '\\' := by simpa using hhead
      simp [closedSlashes, hc]
  · rcases r with _ | ⟨c, r⟩
    · rfl
    · have hc : c ≠ '\\' := by simpa using hhead
      simp [closedSlashes, hc]
  · simp [closedSlashes, List.replicate_succ]

theorem toList_escape (l : String) : (escape l).toList =
    written (2 * · + 1) (trunk l.toList) ++ List.replicate (closedSlashes (endSlashes l.toList)) '\\' := by
  have hchars : (pieces l.toList).flatMap Piece.escaped =
      written (2 * · + 1) (trunk l.toList) ++ List.replicate (endSlashes l.toList) '\\' := by
    rw [pieces_eq_trunk, List.flatMap_append, flatMap_escaped]
    simp [List.flatMap_replicate, Piece.escaped]
  rw [escape, String.toList_ofList, hchars, closeSlash_append (by simpa using getLast?_trunk _)]

/-! ## Styled text -/

theorem TagText.closing (h : TagText body) : TagText ('/' :: body) where
  starts := rfl
  inside := by
    intro c hc
    rcases List.mem_cons.mp hc with rfl | hc
    · decide
    · exact h.inside c hc

/-- Escaped text between the tags of a style. -/
def styled (style : List Char) (l : String) : List Char :=
  '[' :: style ++ ']' :: (escape l).toList ++ '[' :: '/' :: style ++ [']']

/-- Styled text is read as its opening tag, the escaped pieces of the text, and the closing tag, which has the
backslashes at the end of the text before it. -/
theorem pieces_styled (hstyle : TagText body) (l : String) (rest : List Char) :
    pieces (styled body l ++ rest) =
      .tag 0 body :: ((pieces (trunk l.toList)).map (Piece.slashed (2 * · + 1)) ++
        .tag (closedSlashes (endSlashes l.toList)) ('/' :: body) :: pieces rest) := by
  generalize hclosed : closedSlashes (endSlashes l.toList) = k
  have hopen : tagAt? (styled body l ++ rest) =
      some (0, body, (escape l).toList ++ '[' :: '/' :: (body ++ ']' :: rest)) :=
    tagAt?_eq_some_iff.mpr ⟨hstyle, by simp [styled]⟩
  have hclose : tagAt? (List.replicate k '\\' ++ '[' :: '/' :: (body ++ ']' :: rest)) = some (k, '/' :: body, rest) :=
    tagAt?_eq_some_iff.mpr ⟨hstyle.closing, rfl⟩
  rw [pieces_of_tag hopen, toList_escape, hclosed, List.append_assoc,
    pieces_written_append (fun cs h => not_opensTag_written_bracket h _ _) (getLast?_trunk _), pieces_of_tag hclose]

end Conformance.Markup
