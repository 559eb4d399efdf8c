import Mathlib
import Conformance.Console.Session
import Conformance.Proofs.Console.Shown

/-!
# Diagnostics as they are shown

A diagnostic is logged as one record: the lines of its report, each escaped in a style of its own.  The message can be
shown whatever is in the report.  A line shows itself exactly if it is `Verbatim`: no character of it is hidden, no code
in it has a picture, a backslash stands before a bracket only if the bracket opens a tag, and the line does not end in
two backslashes.  Brackets alone do no harm.
-/

/-! ## Lines -/

namespace Conformance.Text

theorem cutLines_ne_nil {current cs : List Char} (h : current ≠ [] ∨ cs ≠ []) : cutLines current cs ≠ [] := by
  fun_induction cutLines current cs with
  | case1 current hempty => simp_all
  | case2 current hempty => simp
  | case3 current cs ih => simp
  | case4 current c cs hne hends ih => simp
  | case5 current c cs hne hends ih => exact ih (.inl (List.cons_ne_nil c current))

/-- No line has a character in it that ends a line. -/
theorem endsLine_of_mem_cutLines {current cs line : List Char} (hcurrent : ∀ c ∈ current, endsLine c = false)
    (hline : line ∈ cutLines current cs) : ∀ c ∈ line, endsLine c = false := by
  fun_induction cutLines current cs with
  | case1 current hempty => simp at hline
  | case2 current hempty =>
    obtain rfl := List.mem_singleton.mp hline
    simpa using hcurrent
  | case3 current cs ih =>
    rcases List.mem_cons.mp hline with rfl | hline
    · simpa using hcurrent
    · exact ih (by simp) hline
  | case4 current c cs hne hends ih =>
    rcases List.mem_cons.mp hline with rfl | hline
    · simpa using hcurrent
    · exact ih (by simp) hline
  | case5 current c cs hne hends ih =>
    refine ih ?_ hline
    simpa [Bool.not_eq_true _ ▸ hends] using hcurrent

theorem newline_not_mem_of_mem_lines {s l : String} (h : l ∈ lines s) : '\n' ∉ l.toList := by
  obtain ⟨cs, hcs, rfl⟩ := List.mem_map.mp h
  intro hmem
  have hends : endsLine '\n' = false := endsLine_of_mem_cutLines (by simp) hcs _ (by simpa using hmem)
  exact absurd hends (by decide)

end Conformance.Text

namespace Conformance.Markup

/-! ## Backslashes before brackets -/

/-- A backslash before a bracket that opens no tag, as pieces. -/
abbrev bareEscape : List Piece := [.plain '\\', .plain '[']

theorem pair_infix_cons_iff {α : Type} (a b x : α) (xs : List α) :
    [a, b] <:+: x :: xs ↔ (a = x ∧ xs.head? = some b) ∨ [a, b] <:+: xs := by
  have hhead : [b] <+: xs ↔ xs.head? = some b := by cases xs <;> simp [eq_comm]
  rw [List.infix_cons_iff, List.cons_prefix_cons, hhead]

theorem unslashed_chunks_iff (ps : List Piece) :
    (∀ cs, Chunk.text cs ∈ chunks ps → Unslashed cs) ↔ ¬ bareEscape <:+: ps := by
  induction ps with
  | nil => simp [chunks]
  | cons p ps ih =>
    rw [pair_infix_cons_iff, not_or, ← ih]
    cases p with
    | tag n body => simp [chunks]
    | plain c =>
      cases ps with
      | nil => simp [chunks, Unslashed, pair_infix_cons_iff]
      | cons q ps =>
        cases q with
        | tag n body => simp [chunks, Unslashed, pair_infix_cons_iff]
        | plain d =>
          obtain ⟨cs, rest, hchunks⟩ : ∃ cs rest, chunks (.plain d :: ps) = .text (d :: cs) :: rest := by
            rw [chunks]
            split
            · exact ⟨_, _, rfl⟩
            · exact ⟨_, _, rfl⟩
          have hcons : Unslashed (c :: d :: cs) ↔ ¬ ('\\' = c ∧ d = '[') ∧ Unslashed (d :: cs) := by
            rw [Unslashed, pair_infix_cons_iff, not_or]
            simp [Unslashed]
          rw [chunks, hchunks]
          simp [hcons, and_assoc]

theorem head?_of_pieces {cs : List Char} {c : Char} (h : (pieces cs).head? = some (.plain c)) : cs.head? = some c := by
  cases cs with
  | nil => simp [pieces] at h
  | cons d cs =>
    rw [pieces] at h
    split at h
    · simp at h
    · simpa using h

theorem not_opensTag_of_slash {after : List Char} (h : tagAt? ('\\' :: '[' :: after) = none) : ¬ OpensTag after :=
  (tagAt?_run_eq_none_iff (n := 1) (by decide)).mp h rfl

theorem bareEscape_pieces_iff (cs : List Char) : ¬ bareEscape <:+: pieces cs ↔
    ∀ before after, cs = before ++ '\\' :: '[' :: after → OpensTag after := by
  induction cs using pieces.induct with
  | case1 => simp [pieces]
  | case2 c cs n body rest h ih =>
    obtain ⟨hbody, heq⟩ := tagAt?_eq_some_iff.mp h
    rw [pieces_of_tag h, pair_infix_cons_iff, or_iff_right (by simp), ih]
    constructor
    · intro hrest before after hcs
      have hsplit : (List.replicate n '\\' ++ '[' :: (body ++ [']'])) ++ rest = before ++ '\\' :: '[' :: after := by
        rw [← hcs, heq]
        simp
      rcases List.append_eq_append_iff.mp hsplit with ⟨a, -, ha⟩ | ⟨a, ha, hafter⟩
      · exact hrest a after ha
      · -- the backslash is before the end of the tag, so it is the one before its bracket
        rcases a with _ | ⟨b, _ | ⟨b', a⟩⟩
        · exact hrest [] after hafter.symm
        · obtain ⟨rfl, -⟩ := List.cons_eq_cons.mp hafter
          have hlast := congrArg List.getLast? ha
          simp [List.getLast?_append, List.getLast?_cons] at hlast
        · obtain ⟨rfl, htail⟩ := List.cons_eq_cons.mp hafter
          obtain ⟨rfl, rfl⟩ := List.cons_eq_cons.mp htail
          have hbracket : List.replicate n '\\' ++ '[' :: (body ++ [']']) = (before ++ ['\\']) ++ '[' :: a := by
            rw [ha]
            simp
          have hno : '[' ∉ body ++ [']'] := by
            simpa using fun hmem => (hbody.inside _ hmem).1 rfl
          obtain ⟨-, -, rfl⟩ := (List.append_cons_inj_of_notMem (by simp) hno).mp hbracket
          exact ⟨body, rest, hbody, by simp⟩
    · intro hcs before after hrest
      exact hcs (List.replicate n '\\' ++ '[' :: (body ++ ']' :: before)) after (by rw [heq, hrest]; simp)
  | case3 c cs h ih =>
    rw [pieces_of_none h, pair_infix_cons_iff, not_or, ih]
    constructor
    · rintro ⟨hstart, hcs⟩ before after heq
      cases before with
      | nil =>
        obtain ⟨rfl, rfl⟩ := List.cons_eq_cons.mp heq
        have hplain : tagAt? ('[' :: after) = none :=
          (tagAt?_run_eq_none_iff (n := 0) (by decide)).mpr fun _ => not_opensTag_of_slash h
        exact absurd ⟨rfl, by rw [pieces_of_none hplain]; rfl⟩ hstart
      | cons b before => exact hcs before after (List.cons_eq_cons.mp heq).2
    · intro hall
      refine ⟨?_, fun before after heq => hall (c :: before) after (by rw [heq]; rfl)⟩
      rintro ⟨hslash, hhead⟩
      cases hslash
      obtain ⟨after, rfl⟩ := List.head?_eq_some_iff.mp (head?_of_pieces hhead)
      exact not_opensTag_of_slash h (hall [] after rfl)

/-! ## Lines that show themselves -/

variable {pictures : Pictures} {l : List Char}

/-- The text of a chunk that is looked through for pictures. -/
def Chunk.stretch : Chunk → List Char
  | text cs => cs
  | tag _ body => '[' :: body ++ [']']

/-- What a line must be like to be shown as it stands. -/
structure Verbatim (pictures : Pictures) (l : List Char) : Prop where
  /-- No character is hidden. -/
  visible : ∀ c ∈ l, isHidden c = false
  /-- Backslashes stand before brackets only where the bracket opens a tag. -/
  brackets : ∀ before after, l = before ++ '\\' :: '[' :: after → OpensTag after
  /-- The line does not end in two backslashes. -/
  ending : ¬ ['\\', '\\'] <:+ l
  /-- No code in it has a picture. -/
  pictureless : ∀ x ∈ chunks (pieces (trunk l)), ∀ code ∈ codes none x.stretch, pictures code = none

theorem seen_eq_iff (hbook : Book pictures) (x : Chunk) : x.seen pictures = x.chars ↔
    (∀ cs, x = .text cs → Unslashed cs) ∧ (∀ c ∈ x.chars, isHidden c = false) ∧
      ∀ code ∈ codes none x.stretch, pictures code = none := by
  cases x with
  | text cs => simp [Chunk.seen, Chunk.chars, Chunk.stretch, shownText_unescape_eq_iff hbook, shownText_eq_iff hbook]
  | tag n body =>
    have hslash : isHidden '\\' = false := by decide
    rw [Chunk.seen, Chunk.chars, Chunk.stretch, List.append_assoc, List.append_cancel_left_eq, shownText_eq_iff hbook]
    simp only [List.forall_mem_append, List.mem_replicate]
    simp [hslash]

theorem length_seen_le (hbook : Book pictures) (x : Chunk) : (x.seen pictures).length ≤ x.chars.length := by
  cases x with
  | text cs => exact (length_shownText_le hbook _).trans (unescape_sublist cs).length_le
  | tag n body =>
    rw [Chunk.seen, Chunk.chars, List.append_assoc, List.length_append, List.length_append]
    exact Nat.add_le_add_left (length_shownText_le hbook ('[' :: body ++ [']'])) _

section

variable {α β : Type} {f g : α → List β}

theorem length_flatMap_le (h : ∀ x, (f x).length ≤ (g x).length) (xs : List α) :
    (xs.flatMap f).length ≤ (xs.flatMap g).length := by
  induction xs with
  | nil => simp
  | cons x xs ih =>
    have hx := h x
    simp only [List.flatMap_cons, List.length_append]
    omega

/-- Where no part gets longer, the whole is kept only if each part is. -/
theorem flatMap_eq_iff (h : ∀ x, (f x).length ≤ (g x).length) (xs : List α) :
    xs.flatMap f = xs.flatMap g ↔ ∀ x ∈ xs, f x = g x := by
  induction xs with
  | nil => simp
  | cons x xs ih =>
    rw [List.flatMap_cons, List.flatMap_cons, List.forall_mem_cons, ← ih]
    constructor
    · intro heq
      refine List.append_inj heq ?_
      have hsum := congrArg List.length heq
      have hx := h x
      have hxs := length_flatMap_le h xs
      simp only [List.length_append] at hsum
      omega
    · rintro ⟨hx, hxs⟩
      rw [hx, hxs]

end

theorem two_slashes_suffix_iff (l : List Char) : ['\\', '\\'] <:+ l ↔ 2 ≤ endSlashes l := by
  constructor
  · rintro ⟨before, rfl⟩
    simp [endSlashes, List.rtakeWhile]
  · intro h
    obtain ⟨k, hk⟩ := Nat.exists_eq_add_of_le' h
    refine ⟨trunk l ++ List.replicate k '\\', ?_⟩
    conv_rhs => rw [← trunk_append_slashes l, hk, List.replicate_add]
    simp [List.replicate_succ]

theorem bareEscape_trunk_iff (l : List Char) : bareEscape <:+: pieces l ↔ bareEscape <:+: pieces (trunk l) := by
  rw [pieces_eq_trunk l]
  generalize endSlashes l = k
  constructor
  · intro h
    induction k with
    | zero => simpa using h
    | succ k ih =>
      rw [List.replicate_succ', ← List.append_assoc, List.infix_concat_iff] at h
      rcases h with h | h
      · rcases List.suffix_concat_iff.mp h with h | ⟨t, ht, -⟩
        · cases h
        · have hlast := congrArg List.getLast? ht
          simp at hlast
      · exact ih h
  · exact fun h => h.trans (List.infix_append' [] _ _)

theorem shownLine_eq_iff_trunk (hbook : Book pictures) (style l : List Char) : shownLine pictures style l = l ↔
    endSlashes l < 2 ∧ (chunks (pieces (trunk l))).flatMap (Chunk.seen pictures) = trunk l := by
  have hlength : ((chunks (pieces (trunk l))).flatMap (Chunk.seen pictures)).length ≤ (trunk l).length := by
    have hle := length_flatMap_le (length_seen_le hbook) (chunks (pieces (trunk l)))
    rwa [flatMap_chars_chunks, flatMap_chars_pieces] at hle
  have hl : shownLine pictures style l = l ↔
      shownLine pictures style l = trunk l ++ List.replicate (endSlashes l) '\\' := by rw [trunk_append_slashes]
  rw [hl, shownLine]
  generalize (chunks (pieces (trunk l))).flatMap (Chunk.seen pictures) = shown at *
  generalize endSlashes l = k
  rcases k with _ | _ | k
  · simp [closedSlashes]
  · simp [closedSlashes]
  · refine iff_of_false (fun heq => ?_) (by omega)
    have hclosed : closedSlashes (k + 2) = k + 2 := by simp [closedSlashes]
    simp only [hclosed] at heq
    rcases Nat.mod_two_eq_zero_or_one (k + 2) with heven | hodd
    · have hsum := congrArg List.length heq
      simp [heven] at hsum
      omega
    · -- the closing tag is shown, so the line ends in a bracket
      have hlast := congrArg List.getLast? heq
      simp [hodd, List.getLast?_append, List.getLast?_cons, List.getLast?_replicate] at hlast

theorem forall_seen_eq_iff (hbook : Book pictures) (cs : List Char) :
    (chunks (pieces cs)).flatMap (Chunk.seen pictures) = cs ↔
      (∀ c ∈ cs, isHidden c = false) ∧ ¬ bareEscape <:+: pieces cs ∧
        ∀ x ∈ chunks (pieces cs), ∀ code ∈ codes none x.stretch, pictures code = none := by
  have hchars : (chunks (pieces cs)).flatMap Chunk.chars = cs := by rw [flatMap_chars_chunks, flatMap_chars_pieces]
  have hparts := flatMap_eq_iff (length_seen_le hbook) (chunks (pieces cs))
  have hvisible : (∀ c ∈ cs, isHidden c = false) ↔
      ∀ x ∈ chunks (pieces cs), ∀ c ∈ x.chars, isHidden c = false := by
    conv_lhs => rw [← hchars]
    simp only [List.mem_flatMap]
    exact ⟨fun h x hx c hc => h c ⟨x, hx, hc⟩, fun h c ⟨x, hx, hc⟩ => h x hx c hc⟩
  rw [hchars] at hparts
  rw [hparts, hvisible, ← unslashed_chunks_iff]
  simp only [seen_eq_iff hbook]
  constructor
  · intro h
    exact ⟨fun x hx => (h x hx).2.1, fun cs hcs => (h _ hcs).1 cs rfl, fun x hx => (h x hx).2.2⟩
  · rintro ⟨hhidden, hunslashed, hcodes⟩ x hx
    exact ⟨fun cs hcs => hunslashed cs (hcs ▸ hx), hhidden x hx, hcodes x hx⟩

theorem shownLine_eq_iff (hbook : Book pictures) (style l : List Char) :
    shownLine pictures style l = l ↔ Verbatim pictures l := by
  have hending : endSlashes l < 2 ↔ ¬ ['\\', '\\'] <:+ l := by rw [two_slashes_suffix_iff, not_le]
  have hvisible : (∀ c ∈ trunk l, isHidden c = false) ↔ ∀ c ∈ l, isHidden c = false := by
    conv_rhs => rw [← trunk_append_slashes l]
    have hslash : isHidden '\\' = false := by decide
    simp only [List.forall_mem_append, List.mem_replicate]
    simp [hslash]
  rw [shownLine_eq_iff_trunk hbook, forall_seen_eq_iff hbook, hending, hvisible, ← bareEscape_trunk_iff,
    bareEscape_pieces_iff]
  constructor
  · rintro ⟨ending, visible, brackets, pictureless⟩
    exact ⟨visible, brackets, ending, pictureless⟩
  · rintro ⟨visible, brackets, ending, pictureless⟩
    exact ⟨ending, visible, brackets, pictureless⟩

theorem newline_not_mem_seen (hbook : Book pictures) {x : Chunk} (h : '\n' ∉ x.chars) : '\n' ∉ x.seen pictures := by
  cases x with
  | text cs => exact newline_not_mem_shownText hbook fun hmem => h ((unescape_sublist cs).mem hmem)
  | tag n body =>
    have hbody : '\n' ∉ '[' :: body ++ [']'] := fun hmem => h (by rw [Chunk.chars, List.append_assoc]; simp_all)
    simpa [Chunk.seen] using newline_not_mem_shownText hbook hbody

theorem newline_not_mem_shownLine (hbook : Book pictures) {style : List Char} (hstyle : '\n' ∉ style) (h : '\n' ∉ l) :
    '\n' ∉ shownLine pictures style l := by
  have hchunk : ∀ x ∈ chunks (pieces (trunk l)), '\n' ∉ x.chars := by
    intro x hx hmem
    have htrunk : '\n' ∈ trunk l := by
      rw [← flatMap_chars_pieces (trunk l), ← flatMap_chars_chunks]
      exact List.mem_flatMap.mpr ⟨x, hx, hmem⟩
    exact h (by rw [← trunk_append_slashes l]; exact List.mem_append_left _ htrunk)
  have hseen : '\n' ∉ (chunks (pieces (trunk l))).flatMap (Chunk.seen pictures) := by
    rw [List.mem_flatMap]
    rintro ⟨x, hx, hmem⟩
    exact newline_not_mem_seen hbook (hchunk x hx) hmem
  rw [shownLine]
  split <;> simp [hseen, hstyle]

end Conformance.Markup

namespace Conformance.Diagnostic

open Markup

variable {pictures : Pictures}

/-- The lines of a report as they are shown, the first one in the style of errors and the others in that of notes. -/
def shownLines (pictures : Pictures) : List String → List (List Char)
  | [] => []
  | head :: notes => shownLine pictures "diag.error".toList head.toList ::
      notes.map fun n => shownLine pictures "diag.note".toList n.toList

theorem lines_render_ne_nil (d : Diagnostic) : Text.lines d.render ≠ [] := by
  have hrender : d.render.toList ≠ [] := by
    simp [Diagnostic.render, Diagnostic.lines]
  simpa [Text.lines] using Text.cutLines_ne_nil (.inr hrender)

theorem toList_logMessage {d : Diagnostic} {head : String} {notes : List String}
    (h : Text.lines d.render = head :: notes) : d.logMessage.toList =
      styled "diag.error".toList head ++ notes.flatMap fun n => '\n' :: styled "diag.note".toList n := by
  rw [Diagnostic.logMessage, h]
  simp [styled, String.toList_join, List.flatMap_map]

theorem intercalate_cons {α : Type} (sep : α) (x : List α) (xs : List (List α)) :
    [sep].intercalate (x :: xs) = x ++ xs.flatMap (sep :: ·) := by
  induction xs generalizing x with
  | nil => simp
  | cons y xs ih => simp [ih]

/-- The message of a diagnostic can be shown, whatever is in it. -/
theorem shownWith_logMessage (pictures : Pictures) (d : Diagnostic) : shownWith pictures d.logMessage =
    .ok (String.ofList (['\n'].intercalate (shownLines pictures (Text.lines d.render)))) := by
  cases h : Text.lines d.render with
  | nil => exact absurd h d.lines_render_ne_nil
  | cons head notes =>
    obtain ⟨position, stack, hstyled⟩ := shownChunks_styled pictures isStyle_error head
      (notes.flatMap fun n => '\n' :: styled "diag.note".toList n) 0 []
    rw [shownWith, toList_logMessage h, hstyled, shownChunks_notes isStyle_note, shownLines, intercalate_cons]
    simp [Except.map, List.flatMap_map]

theorem shownLines_ne_nil {ls : List String} (h : ls ≠ []) : shownLines pictures ls ≠ [] := by
  cases ls with
  | nil => exact absurd rfl h
  | cons head notes => exact List.cons_ne_nil _ _

theorem newline_not_mem_shownLines (hbook : Book pictures) {ls : List String} (h : ∀ l ∈ ls, '\n' ∉ l.toList) :
    ∀ shown ∈ shownLines pictures ls, '\n' ∉ shown := by
  cases ls with
  | nil => simp [shownLines]
  | cons head notes =>
    obtain ⟨hhead, hnotes⟩ := List.forall_mem_cons.mp h
    refine List.forall_mem_cons.mpr ⟨newline_not_mem_shownLine hbook (by decide) hhead, ?_⟩
    simpa using fun n hn => newline_not_mem_shownLine hbook (by decide) (hnotes n hn)

theorem shownLines_eq_iff (hbook : Book pictures) (ls : List String) :
    shownLines pictures ls = ls.map String.toList ↔ ∀ l ∈ ls, Verbatim pictures l.toList := by
  cases ls with
  | nil => simp [shownLines]
  | cons head notes => simp [shownLines, shownLine_eq_iff hbook]

theorem intercalate_inj {α : Type} [DecidableEq α] {sep : α} {xs ys : List (List α)} (hxs : ∀ x ∈ xs, sep ∉ x)
    (hys : ∀ y ∈ ys, sep ∉ y) (hne : xs ≠ []) (hne' : ys ≠ []) :
    [sep].intercalate xs = [sep].intercalate ys ↔ xs = ys := by
  refine ⟨fun h => ?_, congrArg _⟩
  rw [← List.splitOn_intercalate sep hxs hne, h, List.splitOn_intercalate sep hys hne']

/-- A diagnostic is logged as one record of an error, whose message can be shown.  It shows the lines of the report, in
order and with nothing changed, exactly if each of them is verbatim. -/
theorem report_shows (pictures : Pictures) (hbook : Book pictures) (d : Diagnostic) :
    Text.lines d.render ≠ [] ∧ ∃ message text,
      Logger.Operation.report d = .log Logger.name { level := .error, message } ∧
      shownWith pictures message = .ok text ∧
      (text = "\n".intercalate (Text.lines d.render) ↔ ∀ l ∈ Text.lines d.render, Verbatim pictures l.toList) := by
  refine ⟨d.lines_render_ne_nil, d.logMessage, _, rfl, d.shownWith_logMessage pictures, ?_⟩
  have hlines : ∀ l ∈ Text.lines d.render, '\n' ∉ l.toList := fun l hl =>
    Text.newline_not_mem_of_mem_lines hl
  have hshown := newline_not_mem_shownLines hbook hlines
  rw [← shownLines_eq_iff hbook, ← String.toList_inj, String.toList_ofList, String.toList_intercalate]
  exact intercalate_inj hshown (by simpa using hlines) (shownLines_ne_nil d.lines_render_ne_nil)
    (by simpa using d.lines_render_ne_nil)

/-- A table with one picture. -/
def hundred : Pictures := fun code => if code = ['1', '0', '0'] then some ['💯'] else none

theorem book_hundred : Book hundred := by
  have hpicture : ∀ code picture, hundred code = some picture → picture = ['💯'] := by
    intro code picture h
    unfold hundred at h
    split at h
    · exact (Option.some.inj h).symm
    · cases h
  refine ⟨fun code picture h => ?_, fun code h => ?_, fun code picture h => ?_⟩
  · simp [hpicture code picture h]
  · simpa using hpicture code _ h
  · simp [hpicture code picture h]

/-- A report whose place has the code of a picture in it. -/
def lineHundred : Diagnostic where
  kind := .missingInstantiations
  message := "requires [Boxed[T]] pairs"
  span := some { filename := "mod.py", line := 100, column := 1, endLine := 100, endColumn := 5 }
  notes := [{ message := "only concrete types" }]

theorem report_shows_lineHundred : Book hundred ∧ Text.lines lineHundred.render ≠ [] ∧ ∃ message text,
    Logger.Operation.report lineHundred = .log Logger.name { level := .error, message } ∧
    shownWith hundred message = .ok text ∧
    (text = "\n".intercalate (Text.lines lineHundred.render) ↔
      ∀ l ∈ Text.lines lineHundred.render, Verbatim hundred l.toList) :=
  ⟨book_hundred, report_shows hundred book_hundred lineHundred⟩

/-- A report with a backslash before a bracket that opens no tag. -/
def bareBracket : Diagnostic := { kind := .invalidArguments, message := "a\\[b" }

/-- The backslash is not shown. -/
theorem report_drops_slash : Text.lines bareBracket.render = ["error[InvalidArguments]: a\\[b"] ∧
    shown bareBracket.record.message = .ok "error[InvalidArguments]: a[b" := by
  decide +kernel

end Conformance.Diagnostic
