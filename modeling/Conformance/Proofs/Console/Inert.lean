import Mathlib
import Conformance.Proofs.Computation
import Conformance.Proofs.Console.Verbatim

/-!
# Messages that show themselves

A message shows itself exactly if it is `Inert`: no bracket in it opens a tag, no backslash stands before a bracket, no
character is hidden and no code has a picture (`shownWith_eq_self_iff`).  What a chunk shows does not depend on the tags
that are open, and a tag always shows less than it is written with, so nothing that is lost is made up for elsewhere.
-/

namespace Conformance.Markup

variable {pictures : Pictures} {cs xs ys : List Char}

/-! ## What chunks show -/

/-- What a chunk shows. -/
def Chunk.display (pictures : Pictures) : Chunk → List Char
  | text cs => shownText pictures (unescape cs)
  | tag n body =>
    List.replicate (n / 2) '\\' ++ if n % 2 = 1 then shownText pictures ('[' :: body ++ [']']) else []

/-- What characters show if they can be shown. -/
def displayed (pictures : Pictures) (cs : List Char) : List Char :=
  (chunks (pieces cs)).flatMap (Chunk.display pictures)

/-- Chunks that can be shown show their parts, whatever tags are open before them. -/
theorem flatMap_display_of_shownChunks {position : Nat} {stack : List String} {xs : List Chunk}
    (h : shownChunks pictures position stack xs = .ok cs) : xs.flatMap (Chunk.display pictures) = cs := by
  induction xs generalizing position stack cs with
  | nil =>
    cases h
    rfl
  | cons x xs ih =>
    cases x with
    | text t =>
      obtain ⟨rest, hrest, rfl⟩ := Computation.except_map_eq_ok h
      rw [List.flatMap_cons, ih hrest]
      rfl
    | tag n body =>
      rcases Nat.mod_two_eq_zero_or_one n with heven | hodd
      · cases hopen : openAfter (position + n) body stack with
        | error e =>
          simp only [shownChunks, heven, hopen] at h
          cases h
        | ok after =>
          rw [shownChunks_even heven hopen] at h
          obtain ⟨rest, hrest, rfl⟩ := Computation.except_map_eq_ok h
          rw [List.flatMap_cons, ih hrest, Chunk.display, if_neg (by omega), List.append_nil]
      · rw [shownChunks_odd hodd] at h
        obtain ⟨rest, hrest, rfl⟩ := Computation.except_map_eq_ok h
        rw [List.flatMap_cons, ih hrest, Chunk.display, if_pos hodd]

/-- A tag shows less than it is written with: of its backslashes about half, and if that is none, nothing of it. -/
theorem length_display_tag_lt (hbook : Book pictures) (n : Nat) (body : List Char) :
    ((Chunk.tag n body).display pictures).length < (Chunk.tag n body).chars.length := by
  have hbody := length_shownText_le hbook ('[' :: body ++ [']'])
  simp only [Chunk.display, Chunk.chars, List.length_append, List.length_replicate, List.length_cons] at hbody ⊢
  split
  · omega
  · simp only [List.length_nil]
    omega

theorem length_display_le (hbook : Book pictures) (x : Chunk) : (x.display pictures).length ≤ x.chars.length := by
  cases x with
  | text cs => exact (length_shownText_le hbook _).trans (unescape_sublist cs).length_le
  | tag n body => exact (length_display_tag_lt hbook n body).le

theorem display_eq_iff (hbook : Book pictures) (x : Chunk) : x.display pictures = x.chars ↔
    ∃ cs, x = .text cs ∧ Unslashed cs ∧ shownText pictures cs = cs := by
  cases x with
  | text cs => simpa [Chunk.display, Chunk.chars] using shownText_unescape_eq_iff hbook cs
  | tag n body =>
    refine iff_of_false (fun h => ?_) (by simp)
    have hlt := length_display_tag_lt hbook n body
    rw [h] at hlt
    exact hlt.false

theorem length_displayed_le (hbook : Book pictures) (cs : List Char) :
    (displayed pictures cs).length ≤ cs.length := by
  have hle := length_flatMap_le (length_display_le hbook) (chunks (pieces cs))
  rwa [flatMap_chars_chunks, flatMap_chars_pieces] at hle

/-! ## Text without tags -/

/-- No bracket opens a tag. -/
def Untagged (cs : List Char) : Prop := ∀ before after, cs = before ++ '[' :: after → ¬ OpensTag after

theorem untagged_cons_iff {c : Char} : Untagged (c :: cs) ↔ (c = '[' → ¬ OpensTag cs) ∧ Untagged cs := by
  constructor
  · intro h
    exact ⟨fun hc => h [] cs (by rw [hc]; rfl), fun before after heq => h (c :: before) after (by rw [heq]; rfl)⟩
  · rintro ⟨hopens, hcs⟩ before after heq
    cases before with
    | nil =>
      obtain ⟨rfl, rfl⟩ := List.cons_eq_cons.mp heq
      exact hopens rfl
    | cons b before => exact hcs before after (List.cons_eq_cons.mp heq).2

theorem untagged_of_notMem (h : '[' ∉ cs) : Untagged cs := by
  rintro before after rfl
  exact absurd (by simp) h

theorem not_opensTag_of_startsTag {c : Char} (h : startsTag c = false) : ¬ OpensTag (c :: cs) := by
  rintro ⟨_ | ⟨b, body⟩, rest, hbody, heq⟩
  · exact absurd hbody.starts (by simp)
  · obtain ⟨rfl, -⟩ := List.cons_eq_cons.mp heq
    exact absurd hbody.starts (by simp [h])

theorem pieces_of_untagged (h : Untagged cs) : pieces cs = cs.map .plain := by
  induction cs with
  | nil => simp [pieces]
  | cons c cs ih =>
    have hnone : tagAt? (c :: cs) = none := by
      rw [Option.eq_none_iff_forall_ne_some]
      rintro ⟨n, body, rest⟩ hsome
      obtain ⟨hbody, heq⟩ := tagAt?_eq_some_iff.mp hsome
      exact h _ _ heq ⟨body, rest, hbody, rfl⟩
    rw [pieces_of_none hnone, List.map_cons, ih (untagged_cons_iff.mp h).2]

/-- A bracket that opens a tag is read as one, or lies in one. -/
theorem exists_tag_mem_pieces (before : List Char) {after : List Char} (h : OpensTag after) :
    ∃ n body, Piece.tag n body ∈ pieces (before ++ '[' :: after) := by
  generalize heq : before ++ '[' :: after = cs
  induction cs using pieces.induct generalizing before with
  | case1 => simp at heq
  | case2 c cs n body rest htag ih => exact ⟨n, body, by rw [pieces_of_tag htag]; exact List.mem_cons_self⟩
  | case3 c cs hnone ih =>
    rw [pieces_of_none hnone]
    cases before with
    | nil =>
      obtain ⟨rfl, rfl⟩ := List.cons_eq_cons.mp heq
      exact absurd h ((tagAt?_run_eq_none_iff (n := 0) (by decide)).mp hnone rfl)
    | cons b before =>
      obtain ⟨n, body, hmem⟩ := ih _ (List.cons_eq_cons.mp heq).2
      exact ⟨n, body, List.mem_cons_of_mem _ hmem⟩

theorem tag_mem_chunks {ps : List Piece} {n : Nat} {body : List Char} (h : Piece.tag n body ∈ ps) :
    Chunk.tag n body ∈ chunks ps := by
  obtain ⟨before, after, rfl⟩ := List.append_of_mem h
  rw [chunks_append_tag]
  simp

theorem chunks_map_plain (h : cs ≠ []) : chunks (cs.map .plain) = [.text cs] := by
  induction cs with
  | nil => exact absurd rfl h
  | cons c cs ih =>
    rw [List.map_cons, chunks]
    cases cs with
    | nil => rfl
    | cons d cs => rw [ih (List.cons_ne_nil d cs)]

/-! ## Inert text -/

/-- Text in which nothing is markup. -/
structure Inert (pictures : Pictures) (cs : List Char) : Prop where
  untagged : Untagged cs
  unslashed : Unslashed cs
  /-- No character is hidden. -/
  visible : ∀ c ∈ cs, isHidden c = false
  /-- No code in it has a picture. -/
  pictureless : ∀ code ∈ codes none cs, pictures code = none

theorem Inert.shownText_unescape (hbook : Book pictures) (h : Inert pictures cs) :
    shownText pictures (unescape cs) = cs :=
  (shownText_unescape_eq_iff hbook cs).mpr
    ⟨h.unslashed, (shownText_eq_iff hbook cs).mpr ⟨h.visible, h.pictureless⟩⟩

/-- Inert text shows itself before whatever is shown after it. -/
theorem Inert.shownChunks_append (hbook : Book pictures) (h : Inert pictures cs) (ys : List Chunk) (position : Nat)
    (stack : List String) : shownChunks pictures position stack (chunks (pieces cs) ++ ys) =
      (shownChunks pictures (position + cs.length) stack ys).map (cs ++ ·) := by
  rw [pieces_of_untagged h.untagged]
  rcases eq_or_ne cs [] with rfl | hne
  · cases hys : shownChunks pictures position stack ys <;> simp [chunks, Except.map, hys]
  · rw [chunks_map_plain hne, List.singleton_append, shownChunks, h.shownText_unescape hbook]

theorem displayed_eq_iff (hbook : Book pictures) (cs : List Char) :
    displayed pictures cs = cs ↔ Inert pictures cs := by
  have hchars : (chunks (pieces cs)).flatMap Chunk.chars = cs := by rw [flatMap_chars_chunks, flatMap_chars_pieces]
  have hparts := flatMap_eq_iff (length_display_le hbook) (chunks (pieces cs))
  rw [hchars] at hparts
  simp only [displayed, hparts, display_eq_iff hbook]
  constructor
  · intro hall
    have huntagged : Untagged cs := by
      rintro before after rfl hopens
      obtain ⟨n, body, hmem⟩ := exists_tag_mem_pieces before hopens
      obtain ⟨_, htext, -⟩ := hall _ (tag_mem_chunks hmem)
      cases htext
    have htext : Unslashed cs ∧ shownText pictures cs = cs := by
      rcases eq_or_ne cs [] with rfl | hne
      · exact ⟨by simp [Unslashed], rfl⟩
      · rw [pieces_of_untagged huntagged, chunks_map_plain hne] at hall
        obtain ⟨_, heq, htext⟩ := hall _ List.mem_cons_self
        cases heq
        exact htext
    obtain ⟨hvisible, hpictures⟩ := (shownText_eq_iff hbook cs).mp htext.2
    exact ⟨huntagged, htext.1, hvisible, hpictures⟩
  · intro h x hx
    rw [pieces_of_untagged h.untagged] at hx
    rcases eq_or_ne cs [] with rfl | hne
    · simp [chunks] at hx
    · rw [chunks_map_plain hne, List.mem_singleton] at hx
      exact ⟨cs, hx, h.unslashed, (shownText_eq_iff hbook cs).mpr ⟨h.visible, h.pictureless⟩⟩

/-- A message shows itself exactly if it is inert. -/
theorem shownWith_eq_self_iff (hbook : Book pictures) (s : String) :
    shownWith pictures s = .ok s ↔ Inert pictures s.toList := by
  constructor
  · intro h
    obtain ⟨cs, hcs, rfl⟩ := Computation.except_map_eq_ok h
    rw [← displayed_eq_iff hbook, displayed, flatMap_display_of_shownChunks hcs, String.toList_ofList]
  · intro h
    have hshown := h.shownChunks_append hbook [] 0 []
    rw [List.append_nil] at hshown
    rw [shownWith, hshown]
    simp [shownChunks, Except.map]

/-! ## Inert text in parts -/

/-- A bracket closes before one opens. -/
def Closes (cs : List Char) : Prop := ∃ before after, cs = before ++ ']' :: after ∧ '[' ∉ before

theorem not_closes_of_notMem (h : ']' ∉ cs) : ¬ Closes cs := by
  rintro ⟨before, after, rfl, -⟩
  simp at h

theorem not_closes_bracket (cs : List Char) : ¬ Closes ('[' :: cs) := by
  rintro ⟨before, after, heq, hno⟩
  cases before with
  | nil => simp at heq
  | cons b before =>
    obtain ⟨rfl, -⟩ := List.cons_eq_cons.mp heq
    exact hno List.mem_cons_self

theorem closes_cons_iff {c : Char} (hopen : c ≠ '[') (hclose : c ≠ ']') : Closes (c :: cs) ↔ Closes cs := by
  constructor
  · rintro ⟨before, after, heq, hno⟩
    cases before with
    | nil => exact absurd (List.cons_eq_cons.mp heq).1 hclose
    | cons b before =>
      exact ⟨before, after, (List.cons_eq_cons.mp heq).2, fun hmem => hno (List.mem_cons_of_mem _ hmem)⟩
  · rintro ⟨before, after, rfl, hno⟩
    exact ⟨c :: before, after, rfl, by simp [hno, Ne.symm hopen]⟩

/-- What closes no bracket ends no tag that opens before it. -/
theorem opensTag_append_iff (h : ¬ Closes ys) : OpensTag (xs ++ ys) ↔ OpensTag xs := by
  constructor
  · rintro ⟨body, rest, hbody, heq⟩
    rcases List.append_eq_append_iff.mp heq with ⟨a, rfl, hys⟩ | ⟨a, rfl, hrest⟩
    · exact absurd ⟨a, rest, hys, fun hmem => (hbody.inside _ (List.mem_append_right _ hmem)).1 rfl⟩ h
    · cases a with
      | nil => exact absurd ⟨[], rest, hrest.symm, by simp⟩ h
      | cons b a =>
        obtain ⟨rfl, -⟩ := List.cons_eq_cons.mp hrest
        exact ⟨body, a, hbody, rfl⟩
  · rintro ⟨body, rest, hbody, rfl⟩
    exact ⟨body, rest ++ ys, hbody, by simp⟩

theorem untagged_append_iff (h : '[' ∉ xs ∨ ¬ Closes ys) : Untagged (xs ++ ys) ↔ Untagged xs ∧ Untagged ys := by
  constructor
  · intro huntagged
    refine ⟨?_, fun before after heq => huntagged (xs ++ before) after (by rw [heq]; simp)⟩
    rintro before after rfl ⟨body, rest, hbody, rfl⟩
    exact huntagged before (body ++ ']' :: (rest ++ ys)) (by simp) ⟨body, rest ++ ys, hbody, rfl⟩
  · rintro ⟨hxs, hys⟩ before after heq
    rcases List.append_eq_append_iff.mp heq with ⟨a, -, ha⟩ | ⟨a, rfl, ha⟩
    · exact hys a after ha
    · cases a with
      | nil => exact hys [] after (by simpa using ha.symm)
      | cons b a =>
        rw [List.cons_append] at ha
        obtain ⟨rfl, rfl⟩ := List.cons_eq_cons.mp ha
        rcases h with hno | hno
        · simp at hno
        · rw [opensTag_append_iff hno]
          exact hxs before a rfl

theorem pair_infix_append_iff {α : Type} (a b : α) (xs ys : List α) :
    [a, b] <:+: xs ++ ys ↔ [a, b] <:+: xs ∨ [a, b] <:+: ys ∨ (xs.getLast? = some a ∧ ys.head? = some b) := by
  induction xs with
  | nil => simp
  | cons x xs ih =>
    rw [List.cons_append, pair_infix_cons_iff, ih, pair_infix_cons_iff]
    cases xs with
    | nil =>
      have hlast : [x].getLast? = some a ↔ a = x := by simp [eq_comm]
      rw [hlast]
      simp [or_comm]
    | cons y xs => simp [or_assoc]

theorem unslashed_append_iff : Unslashed (xs ++ ys) ↔
    Unslashed xs ∧ Unslashed ys ∧ ¬ (xs.getLast? = some '\\' ∧ ys.head? = some '[') := by
  rw [Unslashed, pair_infix_append_iff, not_or, not_or, Unslashed, Unslashed]

/-- White space ends a code that has begun. -/
theorem codes_append_space {c : Char} (hspace : Text.isSpace c = true) (begun : Option (List Char)) :
    codes begun (xs ++ c :: ys) = codes begun xs ++ codes none ys := by
  have hcolon : (c == ':') = false := by
    rw [beq_eq_false_iff_ne]
    rintro rfl
    exact absurd hspace (by decide)
  induction xs generalizing begun with
  | nil => cases begun <;> simp [codes, hcolon, hspace]
  | cons x xs ih =>
    cases begun with
    | none =>
      simp only [List.cons_append, codes]
      split <;> exact ih _
    | some begun =>
      simp only [List.cons_append, codes]
      split
      · rw [ih, List.cons_append]
      · split <;> exact ih _

/-- Without a colon no code begins or ends. -/
theorem codes_append_of_notMem (h : ':' ∉ ys) (begun : Option (List Char)) :
    codes begun (xs ++ ys) = codes begun xs := by
  induction xs generalizing begun with
  | nil =>
    induction ys generalizing begun with
    | nil => rfl
    | cons y ys ih =>
      obtain ⟨hy, hys⟩ : y ≠ ':' ∧ ':' ∉ ys := by simpa [eq_comm] using h
      cases begun with
      | none => simpa [codes, hy] using ih hys none
      | some begun =>
        simp only [List.nil_append, codes, beq_iff_eq, hy, if_false]
        split
        · simpa [codes] using ih hys none
        · simpa [codes] using ih hys (some (y :: begun))
  | cons x xs ih =>
    cases begun with
    | none =>
      simp only [List.cons_append, codes]
      split <;> exact ih _
    | some begun =>
      simp only [List.cons_append, codes]
      split
      · rw [ih]
      · split <;> exact ih _

theorem codes_of_notMem (h : ':' ∉ cs) : codes none cs = [] := by
  rw [← List.nil_append cs, codes_append_of_notMem h none]
  rfl

/-- Text before a blank and text behind it are inert each by itself, unless a tag goes over the blank. -/
theorem inert_append_space (h : '[' ∉ xs ∨ ¬ Closes ys) :
    Inert pictures (xs ++ ' ' :: ys) ↔ Inert pictures xs ∧ Inert pictures ys := by
  have hblank : isHidden ' ' = false := by decide
  have htail : Untagged (' ' :: ys) ↔ Untagged ys := by simp [untagged_cons_iff]
  have htagged : Untagged (xs ++ ' ' :: ys) ↔ Untagged xs ∧ Untagged ys := by
    rw [untagged_append_iff (by rwa [closes_cons_iff (by decide) (by decide)]), htail]
  have hslashed : Unslashed (xs ++ ' ' :: ys) ↔ Unslashed xs ∧ Unslashed ys := by
    have hcons : Unslashed (' ' :: ys) ↔ Unslashed ys := by
      rw [Unslashed, pair_infix_cons_iff, Unslashed]
      simp
    rw [unslashed_append_iff, hcons]
    simp
  constructor
  · rintro ⟨untagged, unslashed, visible, pictureless⟩
    rw [codes_append_space (by decide)] at pictureless
    simp only [List.mem_append, List.mem_cons] at visible pictureless
    exact ⟨⟨(htagged.mp untagged).1, (hslashed.mp unslashed).1, fun c hc => visible c (.inl hc),
        fun code hcode => pictureless code (.inl hcode)⟩,
      (htagged.mp untagged).2, (hslashed.mp unslashed).2, fun c hc => visible c (.inr (.inr hc)),
        fun code hcode => pictureless code (.inr hcode)⟩
  · rintro ⟨hxs, hys⟩
    refine ⟨htagged.mpr ⟨hxs.untagged, hys.untagged⟩, hslashed.mpr ⟨hxs.unslashed, hys.unslashed⟩, ?_, ?_⟩
    · simpa [hblank, or_imp, forall_and] using ⟨hxs.visible, hys.visible⟩
    · rw [codes_append_space (by decide)]
      simpa [or_imp, forall_and] using ⟨hxs.pictureless, hys.pictureless⟩

theorem inert_nil : Inert pictures [] :=
  ⟨by simp [Untagged], by simp [Unslashed], by simp, by simp [codes]⟩

/-- Text without brackets, backslashes, hidden characters and codes: it is inert whatever the pictures are. -/
structure Bland (cs : List Char) : Prop where
  plain : ∀ c ∈ cs, c ≠ '[' ∧ c ≠ ']' ∧ c ≠ '\\'
  visible : ∀ c ∈ cs, isHidden c = false
  codeless : codes none cs = []

namespace Bland

theorem notMem (h : Bland cs) : '[' ∉ cs ∧ ']' ∉ cs :=
  ⟨fun hmem => (h.plain _ hmem).1 rfl, fun hmem => (h.plain _ hmem).2.1 rfl⟩

theorem untagged (h : Bland cs) : Untagged cs := untagged_of_notMem h.notMem.1

theorem unslashed (h : Bland cs) : Unslashed cs := fun hpair => h.notMem.1 (hpair.subset (by simp))

theorem inert (h : Bland cs) : Inert pictures cs :=
  ⟨h.untagged, h.unslashed, h.visible, by simp [h.codeless]⟩

/-- Behind a text, bland text without a colon changes nothing. -/
theorem inert_append_iff (h : Bland ys) (hcolon : ':' ∉ ys) : Inert pictures (xs ++ ys) ↔ Inert pictures xs := by
  have hhead : ys.head? ≠ some '[' := fun hhead => h.notMem.1 (List.mem_of_head? hhead)
  have htagged : Untagged (xs ++ ys) ↔ Untagged xs := by
    rw [untagged_append_iff (.inr (not_closes_of_notMem h.notMem.2)), and_iff_left h.untagged]
  have hslashed : Unslashed (xs ++ ys) ↔ Unslashed xs := by
    rw [unslashed_append_iff]
    simp [h.unslashed, hhead]
  have hcodes : codes none (xs ++ ys) = codes none xs := codes_append_of_notMem hcolon none
  constructor
  · rintro ⟨untagged, unslashed, visible, pictureless⟩
    exact ⟨htagged.mp untagged, hslashed.mp unslashed, fun c hc => visible c (List.mem_append_left _ hc),
      by rwa [hcodes] at pictureless⟩
  · rintro ⟨untagged, unslashed, visible, pictureless⟩
    refine ⟨htagged.mpr untagged, hslashed.mpr unslashed, fun c hc => ?_, by rwa [hcodes]⟩
    rcases List.mem_append.mp hc with hc | hc
    · exact visible c hc
    · exact h.visible c hc

/-- After bland text and a blank, all depends on what follows. -/
theorem inert_space_iff (h : Bland xs) : Inert pictures (xs ++ ' ' :: ys) ↔ Inert pictures ys := by
  rw [inert_append_space (.inl h.notMem.1), and_iff_right h.inert]

/-- A message that starts with bland text and a blank shows itself exactly if what follows is inert. -/
theorem shownWith_iff (hbook : Book pictures) (h : Bland xs) {s : String} (hs : s.toList = xs ++ ' ' :: ys) :
    shownWith pictures s = .ok s ↔ Inert pictures ys := by
  rw [shownWith_eq_self_iff hbook, hs, h.inert_space_iff]

end Bland

end Conformance.Markup
