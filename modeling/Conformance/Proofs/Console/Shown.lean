import Mathlib
import Conformance.Proofs.Console.Markup

/-!
# What styled text shows

A stretch of text shows its characters but for pictures in the place of their codes, backslashes before brackets and
hidden characters (`shownText`).  No stretch gets longer, so it shows itself only if none of the three is in it
(`shownText_unescape_eq_iff`).  The tags of an escaped text show themselves (`Chunk.seen`), and styled text shows the
chunks of its line and what the backslashes at the end of it leave of the closing tag (`shownLine`).
-/

namespace Conformance.Markup

variable {pictures : Pictures}

/-! ## Pictures -/

/-- What is expected of a table of pictures: none is longer than its code between colons, none is the code itself, and
none has a line break. -/
structure Book (pictures : Pictures) : Prop where
  brief : ∀ code picture, pictures code = some picture → picture.length ≤ code.length + 2
  other : ∀ code, pictures code ≠ some (':' :: code ++ [':'])
  inline : ∀ code picture, pictures code = some picture → '\n' ∉ picture

/-- The texts that are looked up for pictures; `begun` is what has been read of one after its first colon, backwards. -/
def codes : Option (List Char) → List Char → List (List Char)
  | none, [] => []
  | none, c :: cs => if c == ':' then codes (some []) cs else codes none cs
  | some _, [] => []
  | some begun, c :: cs =>
    if c == ':' then begun.reverse :: codes none cs
    else if Text.isSpace c then codes none cs
    else codes (some (c :: begun)) cs

/-- What has been read of a code, with its first colon. -/
def held : Option (List Char) → List Char
  | none => []
  | some begun => ':' :: begun.reverse

theorem length_illustrate_le (hbook : Book pictures) (begun : Option (List Char)) (cs : List Char) :
    (illustrate pictures begun cs).length ≤ (held begun).length + cs.length := by
  induction cs generalizing begun with
  | nil => cases begun <;> simp [illustrate, held]
  | cons c cs ih =>
    have hnone : (illustrate pictures none cs).length ≤ cs.length := by simpa [held] using ih none
    cases begun with
    | none =>
      rw [illustrate]
      split
      · have hsome := ih (some [])
        simp only [held, List.reverse_nil, List.length_cons, List.length_nil] at hsome ⊢
        omega
      · simpa [held] using hnone
    | some begun =>
      have hlength : (held (some begun)).length = begun.length + 1 := by simp [held]
      rw [illustrate, hlength, List.length_cons]
      split
      · have hpicture : ((pictures begun.reverse).getD (':' :: begun.reverse ++ [':'])).length ≤ begun.length + 2 := by
          cases hp : pictures begun.reverse with
          | none => simp
          | some picture => simpa using hbook.brief _ _ hp
        rw [List.length_append]
        omega
      · split
        · simp only [List.length_append, List.length_cons, List.length_reverse]
          omega
        · have hsome := ih (some (c :: begun))
          simp only [held, List.length_cons, List.length_reverse] at hsome
          omega

theorem illustrate_eq_iff (hbook : Book pictures) (begun : Option (List Char)) (cs : List Char) :
    illustrate pictures begun cs = held begun ++ cs ↔ ∀ code ∈ codes begun cs, pictures code = none := by
  induction cs generalizing begun with
  | nil => cases begun <;> simp [illustrate, held, codes]
  | cons c cs ih =>
    cases begun with
    | none =>
      simp only [illustrate, codes]
      split
      · next hc => simpa [held, eq_of_beq hc] using ih (some [])
      · simpa [held] using ih none
    | some begun =>
      simp only [illustrate, codes]
      split
      · next hc =>
        cases hp : pictures begun.reverse with
        | none => simpa [held, eq_of_beq hc, hp] using ih none
        | some picture =>
          refine iff_of_false (fun heq => ?_) fun hall => ?_
          · have hsplit : picture ++ illustrate pictures none cs = (':' :: begun.reverse ++ [':']) ++ cs := by
              simpa [held, eq_of_beq hc] using heq
            have hlength : picture.length = (':' :: begun.reverse ++ [':']).length := by
              have hle := length_illustrate_le hbook none cs
              have hbrief := hbook.brief _ _ hp
              have hsum := congrArg List.length hsplit
              simp only [held, List.length_append, List.length_cons, List.length_nil, List.length_reverse]
                at hle hbrief hsum ⊢
              omega
            exact hbook.other _ (hp.trans (congrArg some (List.append_inj_left hsplit hlength)))
          · rw [hall begun.reverse List.mem_cons_self] at hp
            cases hp
      · split
        · simpa [held] using ih none
        · simpa [held] using ih (some (c :: begun))

theorem newline_not_mem_illustrate (hbook : Book pictures) {begun : Option (List Char)} {cs : List Char}
    (hheld : '\n' ∉ held begun) (hcs : '\n' ∉ cs) : '\n' ∉ illustrate pictures begun cs := by
  induction cs generalizing begun with
  | nil =>
    cases begun with
    | none => simp [illustrate]
    | some begun => exact hheld
  | cons c cs ih =>
    obtain ⟨hc, hcs⟩ : '\n' ≠ c ∧ '\n' ∉ cs := by simpa using hcs
    have hnone : '\n' ∉ illustrate pictures none cs := ih (by simp [held]) hcs
    cases begun with
    | none =>
      simp only [illustrate]
      split
      · exact ih (by simp [held]) hcs
      · simp [hc, hnone]
    | some begun =>
      have hbegun : '\n' ∉ begun := by simpa [held] using hheld
      simp only [illustrate]
      split
      · cases hp : pictures begun.reverse with
        | none => simp [hbegun, hnone]
        | some picture => simp [hbook.inline _ _ hp, hnone]
      · split
        · simp [hbegun, hc, hnone]
        · exact ih (by simp [held, hbegun, hc]) hcs

/-! ## Stretches of text -/

/-- No backslash stands before a bracket. -/
def Unslashed (cs : List Char) : Prop := ¬ ['\\', '['] <:+: cs

theorem unescape_sublist (cs : List Char) : (unescape cs).Sublist cs := by
  induction cs using unescape.induct with
  | case1 cs ih => simpa [unescape] using (ih.cons_cons '[').cons '\\'
  | case2 c cs hne ih =>
    rw [unescape]
    · exact ih.cons_cons c
    · exact hne
  | case3 => exact List.Sublist.refl _

theorem unescape_eq_iff (cs : List Char) : unescape cs = cs ↔ Unslashed cs := by
  induction cs using unescape.induct with
  | case1 cs ih =>
    refine iff_of_false (fun h => ?_) fun h => h ⟨[], cs, rfl⟩
    obtain ⟨hbracket, -⟩ := List.cons_eq_cons.mp h
    exact absurd hbracket (by decide)
  | case2 c cs hne ih =>
    have hstart : ¬ ['\\', '['] <+: c :: cs := by
      rintro ⟨after, heq⟩
      obtain ⟨rfl, rfl⟩ := List.cons_eq_cons.mp heq
      exact hne after rfl rfl
    rw [unescape, List.cons_inj_right, ih, Unslashed, Unslashed, List.infix_cons_iff, or_iff_right hstart]
    exact hne
  | case3 => simp [unescape, Unslashed]

theorem length_shownText_le (hbook : Book pictures) (cs : List Char) :
    (shownText pictures cs).length ≤ cs.length := by
  calc (shownText pictures cs).length
      ≤ (illustrate pictures none cs).length := List.length_filter_le _ _
    _ ≤ cs.length := by simpa [held] using length_illustrate_le hbook none cs

theorem shownText_eq_iff (hbook : Book pictures) (cs : List Char) : shownText pictures cs = cs ↔
    (∀ c ∈ cs, isHidden c = false) ∧ ∀ code ∈ codes none cs, pictures code = none := by
  have hcodes : illustrate pictures none cs = cs ↔ ∀ code ∈ codes none cs, pictures code = none :=
    illustrate_eq_iff hbook none cs
  rw [← hcodes]
  constructor
  · intro h
    -- nothing gets longer, so neither of the two steps drops anything
    have hlength : (illustrate pictures none cs).length ≤ (shownText pictures cs).length := by
      rw [h]
      simpa [held] using length_illustrate_le hbook none cs
    have hfilter : shownText pictures cs = illustrate pictures none cs := List.filter_sublist.eq_of_length_le hlength
    have hsame : illustrate pictures none cs = cs := hfilter.symm.trans h
    rw [shownText, List.filter_eq_self, hsame] at hfilter
    exact ⟨by simpa using hfilter, hsame⟩
  · rintro ⟨hvisible, hsame⟩
    rw [shownText, hsame, List.filter_eq_self]
    simpa using hvisible

theorem shownText_unescape_eq_iff (hbook : Book pictures) (cs : List Char) :
    shownText pictures (unescape cs) = cs ↔ Unslashed cs ∧ shownText pictures cs = cs := by
  rw [← unescape_eq_iff]
  constructor
  · intro h
    have hlength : cs.length ≤ (unescape cs).length := by
      conv_lhs => rw [← h]
      exact length_shownText_le hbook (unescape cs)
    have hsame : unescape cs = cs := (unescape_sublist cs).eq_of_length_le hlength
    exact ⟨hsame, by rwa [hsame] at h⟩
  · rintro ⟨hsame, h⟩
    rwa [hsame]

theorem newline_not_mem_shownText (hbook : Book pictures) {cs : List Char} (h : '\n' ∉ cs) :
    '\n' ∉ shownText pictures cs :=
  fun hmem => newline_not_mem_illustrate hbook (by simp [held]) h (List.mem_of_mem_filter hmem)

/-! ## Chunks -/

/-- A chunk of an escaped text: its tags have other numbers of backslashes. -/
def Chunk.slashed (s : Nat → Nat) : Chunk → Chunk
  | text cs => text cs
  | tag n body => tag (s n) body

/-- The characters of a chunk. -/
def Chunk.chars : Chunk → List Char
  | text cs => cs
  | tag n body => List.replicate n '\\' ++ '[' :: body ++ [']']

/-- What a chunk of a text shows once the text is escaped. -/
def Chunk.seen (pictures : Pictures) : Chunk → List Char
  | text cs => shownText pictures (unescape cs)
  | tag n body => List.replicate n '\\' ++ shownText pictures ('[' :: body ++ [']'])

theorem chunks_map_slashed (s : Nat → Nat) (ps : List Piece) :
    chunks (ps.map (Piece.slashed s)) = (chunks ps).map (Chunk.slashed s) := by
  induction ps with
  | nil => rfl
  | cons p ps ih =>
    cases p with
    | tag n body => simp [chunks, Piece.slashed, Chunk.slashed, ih]
    | plain c =>
      simp only [List.map_cons, Piece.slashed, chunks, ih]
      cases chunks ps with
      | nil => rfl
      | cons x xs => cases x <;> rfl

theorem flatMap_chars_chunks (ps : List Piece) : (chunks ps).flatMap Chunk.chars = ps.flatMap Piece.chars := by
  induction ps with
  | nil => rfl
  | cons p ps ih =>
    cases p with
    | tag n body => simp [chunks, Piece.chars, Chunk.chars, ih]
    | plain c =>
      rw [List.flatMap_cons, ← ih, chunks]
      cases chunks ps with
      | nil => rfl
      | cons x xs => cases x <;> rfl

/-- A tag ends the chunk before it. -/
theorem chunks_append_tag (ps qs : List Piece) (n : Nat) (body : List Char) :
    chunks (ps ++ .tag n body :: qs) = chunks ps ++ .tag n body :: chunks qs := by
  induction ps with
  | nil => rfl
  | cons p ps ih =>
    cases p with
    | tag m other => simp [chunks, ih]
    | plain c =>
      simp only [List.cons_append, chunks, ih]
      cases chunks ps with
      | nil => rfl
      | cons x xs => cases x <;> rfl

/-! ## Showing chunks -/

section

variable {position n : Nat} {stack after : List String} {body : List Char} {rest : List Chunk}

theorem shownChunks_odd (h : n % 2 = 1) : shownChunks pictures position stack (.tag n body :: rest) =
    (shownChunks pictures (position + n + body.length + 2) stack rest).map
      (List.replicate (n / 2) '\\' ++ shownText pictures ('[' :: body ++ [']']) ++ ·) := by
  simp only [shownChunks, h]
  rfl

theorem shownChunks_even (h : n % 2 = 0) (hopen : openAfter (position + n) body stack = .ok after) :
    shownChunks pictures position stack (.tag n body :: rest) =
      (shownChunks pictures (position + n + body.length + 2) after rest).map (List.replicate (n / 2) '\\' ++ ·) := by
  simp only [shownChunks, h, hopen]
  rfl

end

/-- The chunks of an escaped text show the same whatever tags are open. -/
theorem shownChunks_escaped (pictures : Pictures) (xs ys : List Chunk) (position : Nat) (stack : List String) :
    ∃ after, shownChunks pictures position stack (xs.map (Chunk.slashed (2 * · + 1)) ++ ys) =
      (shownChunks pictures after stack ys).map (xs.flatMap (Chunk.seen pictures) ++ ·) := by
  induction xs generalizing position with
  | nil =>
    refine ⟨position, ?_⟩
    cases h : shownChunks pictures position stack ys <;> simp [Except.map, h]
  | cons x xs ih =>
    cases x with
    | text cs =>
      obtain ⟨after, hafter⟩ := ih (position + cs.length)
      refine ⟨after, ?_⟩
      simp only [List.map_cons, Chunk.slashed, List.cons_append, shownChunks, hafter]
      cases shownChunks pictures after stack ys <;> simp [Except.map, Chunk.seen]
    | tag n body =>
      obtain ⟨after, hafter⟩ := ih (position + (2 * n + 1) + body.length + 2)
      have hhalf : (2 * n + 1) / 2 = n := by omega
      refine ⟨after, ?_⟩
      rw [List.map_cons, Chunk.slashed, List.cons_append, shownChunks_odd (by omega), hafter, hhalf]
      cases shownChunks pictures after stack ys <;> simp [Except.map, Chunk.seen]

/-! ## Showing styled text -/

/-- A style that tags open and close. -/
structure IsStyle (style : List Char) : Prop where
  tagText : TagText style
  opens : ∃ name, ∀ position stack, openAfter position style stack = .ok (name :: stack) ∧
    openAfter position ('/' :: style) (name :: stack) = .ok stack
  shown : ∀ pictures, shownText pictures ('[' :: '/' :: style ++ [']']) = '[' :: '/' :: style ++ [']']

theorem isStyle_error : IsStyle "diag.error".toList where
  tagText := ⟨rfl, by simp⟩
  opens := ⟨"diag.error", fun _ _ => ⟨rfl, rfl⟩⟩
  shown := fun _ => rfl

theorem isStyle_note : IsStyle "diag.note".toList where
  tagText := ⟨rfl, by simp⟩
  opens := ⟨"diag.note", fun _ _ => ⟨rfl, rfl⟩⟩
  shown := fun _ => rfl

/-- What a line shows in a style.  The backslashes at its end are those of the closing tag: of an odd number, the tag is
text too. -/
def shownLine (pictures : Pictures) (style : List Char) (l : List Char) : List Char :=
  let n := closedSlashes (endSlashes l)
  (chunks (pieces (trunk l))).flatMap (Chunk.seen pictures) ++
    (List.replicate (n / 2) '\\' ++ if n % 2 = 1 then '[' :: '/' :: style ++ [']'] else [])

/-- A styled line shows its text before whatever follows. -/
theorem shownChunks_styled (pictures : Pictures) {style : List Char} (hstyle : IsStyle style) (l : String)
    (rest : List Char) (position : Nat) (stack : List String) : ∃ position' stack',
      shownChunks pictures position stack (chunks (pieces (styled style l ++ rest))) =
        (shownChunks pictures position' stack' (chunks (pieces rest))).map
          (shownLine pictures style l.toList ++ ·) := by
  obtain ⟨name, hname⟩ := hstyle.opens
  rw [pieces_styled hstyle.tagText, chunks, shownChunks_even rfl (hname _ stack).1, chunks_append_tag,
    chunks_map_slashed, shownLine]
  generalize closedSlashes (endSlashes l.toList) = n
  obtain ⟨after, hafter⟩ := shownChunks_escaped pictures (chunks (pieces (trunk l.toList)))
    (.tag n ('/' :: style) :: chunks (pieces rest)) (position + 0 + style.length + 2) (name :: stack)
  rw [hafter]
  rcases Nat.mod_two_eq_zero_or_one n with heven | hodd
  · refine ⟨after + n + ('/' :: style).length + 2, stack, ?_⟩
    rw [shownChunks_even heven (hname _ stack).2]
    cases shownChunks pictures _ stack (chunks (pieces rest)) <;> simp [Except.map, heven]
  · refine ⟨after + n + ('/' :: style).length + 2, name :: stack, ?_⟩
    rw [shownChunks_odd hodd, hstyle.shown]
    cases shownChunks pictures _ (name :: stack) (chunks (pieces rest)) <;> simp [Except.map, hodd]

/-- A line break before a styled line is a chunk of its own. -/
theorem chunks_break_styled {style : List Char} (hstyle : TagText style) (l : String) (rest : List Char) :
    chunks (pieces ('\n' :: (styled style l ++ rest))) = .text ['\n'] :: chunks (pieces (styled style l ++ rest)) := by
  have hbreak : tagAt? ('\n' :: (styled style l ++ rest)) = none :=
    (tagAt?_run_eq_none_iff (n := 0) (by decide)).mpr fun h => absurd h (by decide)
  rw [pieces_of_none hbreak, pieces_styled hstyle]
  rfl

/-- Lines in a style, each after a line break. -/
theorem shownChunks_notes {style : List Char} (hstyle : IsStyle style) (notes : List String) (position : Nat)
    (stack : List String) :
    shownChunks pictures position stack (chunks (pieces (notes.flatMap fun n => '\n' :: styled style n))) =
      .ok (notes.flatMap fun n => '\n' :: shownLine pictures style n.toList) := by
  induction notes generalizing position stack with
  | nil => simp [pieces, chunks, shownChunks]
  | cons note notes ih =>
    obtain ⟨position', stack', hstyled⟩ := shownChunks_styled pictures hstyle note
      (notes.flatMap fun n => '\n' :: styled style n) (position + ['\n'].length) stack
    rw [List.flatMap_cons, List.cons_append, chunks_break_styled hstyle.tagText, shownChunks, hstyled, ih]
    rfl

end Conformance.Markup
