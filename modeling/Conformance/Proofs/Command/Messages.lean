import Mathlib
import Conformance.Command.Run
import Conformance.Proofs.Console.Tagged
import Conformance.Proofs.Expansion.Numbering
import Conformance.Proofs.Text.Quoted

/-!
# Messages about paths

Five kinds of events name paths (`Event.paths`), and each is meant to show them as they are (`Event.meant`).  Paths are
put into the messages without being escaped, so an event shows what it is meant to show exactly if it is `Harmless`
(`shows_meant_iff`).  What is meant tells the paths (`paths_of_meant_eq`): a reason why a file cannot be read is never
the end of another one behind a colon.  Only where two files have been expanded an arrow in a path can be taken for the
one between the paths.
-/

namespace Conformance.Command

open Markup

/-! ## Reasons -/

section

open Text Files

/-- Characters of numbers have no part in markup. -/
theorem plain_of_isDigit {c : Char} (h : c.isDigit = true) :
    (c ≠ '[' ∧ c ≠ ']' ∧ c ≠ '\\') ∧ c ≠ ':' ∧ c ≠ ' ' ∧ isHidden c = false := by
  have hne : ∀ x : Char, x.isDigit = false → c ≠ x := by
    rintro x hx rfl
    rw [hx] at h
    cases h
  refine ⟨⟨hne _ rfl, hne _ rfl, hne _ rfl⟩, hne _ rfl, hne _ rfl, ?_⟩
  have hbound : 48 ≤ c.toNat := by
    simp only [Char.isDigit, Bool.and_eq_true, decide_eq_true_eq] at h
    exact h.1
  simp only [isHidden, List.contains_eq_mem, List.mem_cons, List.not_mem_nil, or_false, decide_eq_false_iff_not]
  omega

/-- What is said about bytes that are no text has no quotes but those at the beginning, and no bracket. -/
theorem toList_decodeError (e : Utf8.DecodeError) : ∃ rest, rest ≠ [] ∧ (∀ c ∈ rest, c ≠ '\'' ∧ c ≠ '"' ∧ c ≠ ']') ∧
    e.message.toList = "'utf-8' codec can't decode ".toList ++ rest := by
  have hdigits (n : Nat) : ∀ c ∈ n.repr.toList, c ≠ '\'' ∧ c ≠ '"' ∧ c ≠ ']' := by
    intro c hc
    have hdigit := Naming.isDigit_of_mem_repr hc
    refine ⟨?_, ?_, ?_⟩ <;> (rintro rfl; exact absurd hdigit (by decide))
  have hhex (n : Nat) : ∀ c ∈ (hex 2 n).toList, c ≠ '\'' ∧ c ≠ '"' ∧ c ≠ ']' := by
    intro c hc
    have hdigit := isSome_hexDigit?_of_mem_hex hc
    refine ⟨?_, ?_, ?_⟩ <;> (rintro rfl; exact absurd hdigit (by decide))
  have hrefusal (r : Utf8.Refusal) : ∀ c ∈ r.message.toList, c ≠ '\'' ∧ c ≠ '"' ∧ c ≠ ']' := by
    cases r <;> simp [Utf8.Refusal.message]
  unfold Utf8.DecodeError.message
  split
  · refine ⟨("byte 0x" ++ hex 2 e.byte.toNat ++ " in position " ++ e.start.repr ++ ": " ++ e.refusal.message).toList,
      by simp, ?_, by simp⟩
    simp only [String.toList_append, List.forall_mem_append]
    exact ⟨⟨⟨⟨⟨by simp, hhex _⟩, by simp⟩, hdigits _⟩, by simp⟩, hrefusal _⟩
  · refine ⟨("bytes in position " ++ e.start.repr ++ "-" ++ (e.stop - 1).repr ++ ": " ++ e.refusal.message).toList,
      by simp, ?_, by simp⟩
    simp only [String.toList_append, List.forall_mem_append]
    exact ⟨⟨⟨⟨⟨by simp, hdigits _⟩, by simp⟩, hdigits _⟩, by simp⟩, hrefusal _⟩

theorem toList_fileError (e : FileError) : e.message.toList = (e.fault.description.toList ++ [':', ' ']) ++
    quoteFor e.path.text.toList :: (quotedBody e.path.text ++ [quoteFor e.path.text.toList]) := by
  rw [FileError.message, String.toList_append, String.toList_append, toList_quoted]
  rfl

/-- The wording of a fault has neither colons nor quotes, and starts with a bracket. -/
theorem description_plain (f : FileFault) :
    (∀ c ∈ f.description.toList, c ≠ ':' ∧ c ≠ '\'' ∧ c ≠ '"') ∧ f.description.toList.head? = some '[' := by
  cases f <;> exact ⟨by simp [FileFault.description], rfl⟩

/-- No reason closes a bracket that is open before it. -/
theorem not_closes_reason (e : ReadError) : ¬ Closes e.message.toList := by
  cases e with
  | file e =>
    obtain ⟨rest, hrest⟩ := List.head?_eq_some_iff.mp (description_plain e.fault).2
    rw [ReadError.message, toList_fileError, hrest]
    exact not_closes_bracket _
  | text e =>
    obtain ⟨rest, -, hplain, heq⟩ := toList_decodeError e
    refine not_closes_of_notMem ?_
    rw [ReadError.message, heq, List.mem_append, not_or]
    exact ⟨by simp, fun hmem => (hplain _ hmem).2.2 rfl⟩

/-- A blank is written as itself, and nothing else with a blank. -/
theorem blank_not_mem_escaped {q c : Char} (hc : c ≠ ' ') : ' ' ∉ (escaped q c).toList := by
  have hhex : ∀ width n, ' ' ∉ (hex width n).toList := fun width n h =>
    absurd (isSome_hexDigit?_of_mem_hex h) (by decide)
  unfold escaped Text.numbered
  split_ifs with h1
  · simpa using hc.symm
  · decide
  · decide
  · decide
  · simpa using hc.symm
  all_goals
    rw [String.toList_append, List.mem_append, not_or]
    exact ⟨by decide, hhex _ _⟩

/-- Between quotes the quote never stands behind a blank, since a backslash is before it. -/
theorem not_blank_quote_infix (s : String) : ¬ [' ', quoteFor s.toList] <:+: quotedBody s := by
  have hq := quoteFor_cases s.toList
  unfold quotedBody
  generalize quoteFor s.toList = q at hq
  have hslash : q ≠ '\\' := by rcases hq with rfl | rfl <;> decide
  suffices h : ∀ cs : List Char, (cs.flatMap fun c => (escaped q c).toList).head? ≠ some q ∧
      ¬ [' ', q] <:+: cs.flatMap fun c => (escaped q c).toList from (h _).2
  intro cs
  induction cs with
  | nil => simp
  | cons c cs ih =>
    obtain ⟨hhead, hinfix⟩ := ih
    rw [List.flatMap_cons, pair_infix_append_iff]
    have hone : ¬ [' ', q] <:+: (escaped q c).toList := by
      by_cases hc : c = ' '
      · rcases hq with rfl | rfl <;> (rw [hc]; decide)
      · exact fun h => blank_not_mem_escaped hc (h.subset (by simp))
    refine ⟨?_, by simp [hone, hinfix, hhead]⟩
    rcases escaped_cases q c with ⟨ds, hds⟩ | ⟨hself, hc⟩
    · simpa [hds] using hslash.symm
    · simpa [hself] using hc

/-- In what is said about a file, a quote stands behind a blank only before the path. -/
theorem eq_description_of_quote {e : FileError} {q : Char} {u v : List Char}
    (h : e.message.toList = u ++ ' ' :: q :: (v ++ [q])) : u = e.fault.description.toList ++ [':'] := by
  have hmessage : e.message.toList = (e.fault.description.toList ++ [':']) ++
      ' ' :: quoteFor e.path.text.toList :: (quotedBody e.path.text ++ [quoteFor e.path.text.toList]) := by
    rw [toList_fileError]
    simp
  obtain rfl : quoteFor e.path.text.toList = q := by
    have hlast := congrArg List.getLast? (hmessage.symm.trans h)
    simpa [List.getLast?_append, List.getLast?_cons] using hlast
  have hnot := not_blank_quote_infix e.path.text
  have hblank : quoteFor e.path.text.toList ≠ ' ' := quoteFor_ne (by decide) (by decide)
  have hquote : quoteFor e.path.text.toList ∉ e.fault.description.toList ++ [':'] := by
    rw [List.mem_append, not_or]
    refine ⟨fun hmem => ?_, by simpa using quoteFor_ne (by decide) (by decide)⟩
    obtain ⟨-, hsingle, hdouble⟩ := (description_plain e.fault).1 _ hmem
    exact (quoteFor_cases e.path.text.toList).elim hsingle hdouble
  rw [hmessage] at h
  generalize quoteFor e.path.text.toList = q at *
  rcases List.append_eq_append_iff.mp h with ⟨_ | ⟨x, _ | ⟨y, more⟩⟩, hu, hrest⟩ | ⟨_ | ⟨x, _ | ⟨y, more⟩⟩, hu, hrest⟩
  · rw [hu, List.append_nil]
  · simp only [List.cons_append, List.nil_append, List.cons.injEq] at hrest
    exact absurd hrest.2.1 hblank
  · -- the quote would be inside the quoted path
    simp only [List.cons_append, List.cons.injEq] at hrest
    have hbody : quotedBody e.path.text = more ++ ' ' :: q :: v :=
      List.append_cancel_right (by simpa using hrest.2.2)
    exact absurd ⟨more, v, by rw [hbody]; simp⟩ hnot
  · rw [hu, List.append_nil]
  · simp only [List.cons_append, List.nil_append, List.cons.injEq] at hrest
    exact absurd hrest.2.1 hblank
  · simp only [List.cons_append, List.cons.injEq] at hrest
    exact absurd (by rw [hu, hrest.2.1]; simp) hquote

theorem getLast?_fileError (e : FileError) :
    ∃ q, (q = '\'' ∨ q = '"') ∧ e.message.toList.getLast? = some q :=
  ⟨_, quoteFor_cases e.path.text.toList, by rw [toList_fileError]; simp [List.getLast?_append, List.getLast?_cons]⟩

theorem getLast?_decodeError (e : Utf8.DecodeError) :
    ∃ c, ¬ (c = '\'' ∨ c = '"') ∧ e.message.toList.getLast? = some c := by
  obtain ⟨rest, hne, hplain, heq⟩ := toList_decodeError e
  obtain ⟨hsingle, hdouble, -⟩ := hplain _ (List.getLast_mem hne)
  exact ⟨rest.getLast hne, not_or.mpr ⟨hsingle, hdouble⟩, by
    rw [heq, List.getLast?_append_of_ne_nil _ hne, List.getLast?_eq_some_getLast hne]⟩

/-- A reason is not the end of another one behind a colon. -/
theorem reason_ne_append (e e' : ReadError) (cs : List Char) :
    e.message.toList ≠ cs ++ ':' :: ' ' :: e'.message.toList := by
  intro h
  have hlast {c : Char} (hc : e'.message.toList.getLast? = some c) : e.message.toList.getLast? = some c := by
    rw [h]
    simp [List.getLast?_append, List.getLast?_cons, hc]
  cases e with
  | file e =>
    cases e' with
    | file e' =>
      rw [ReadError.message, ReadError.message, toList_fileError e'] at h
      have hsame : cs ++ ':' :: ' ' :: (e'.fault.description.toList ++ [':']) = e.fault.description.toList ++ [':'] :=
        eq_description_of_quote (q := quoteFor e'.path.text.toList) (v := quotedBody e'.path.text) (h.trans (by simp))
      have hdescription : cs ++ ':' :: ' ' :: e'.fault.description.toList = e.fault.description.toList := by
        rw [← List.append_cancel_right_eq _ [':'], ← hsame]
        simp
      have hcolon : ':' ∈ e.fault.description.toList := by simp [← hdescription]
      exact ((description_plain e.fault).1 _ hcolon).1 rfl
    | text e' =>
      obtain ⟨q, hq, hends⟩ := getLast?_fileError e
      obtain ⟨c, hc, hends'⟩ := getLast?_decodeError e'
      cases hends.symm.trans (hlast hends')
      exact hc hq
  | text e =>
    cases e' with
    | file e' =>
      obtain ⟨c, hc, hends⟩ := getLast?_decodeError e
      obtain ⟨q, hq, hends'⟩ := getLast?_fileError e'
      cases hends.symm.trans (hlast hends')
      exact hc hq
    | text e' =>
      obtain ⟨rest, -, hplain, heq⟩ := toList_decodeError e
      obtain ⟨rest', -, -, heq'⟩ := toList_decodeError e'
      have hinfix : [' ', '\''] <:+: "'utf-8' codec can't decode ".toList ++ rest := by
        rw [← heq]
        refine ⟨cs ++ [':'], "utf-8' codec can't decode ".toList ++ rest', Eq.trans ?_ h.symm⟩
        rw [ReadError.message, heq']
        simp
      rcases (pair_infix_append_iff _ _ _ _).mp hinfix with hlead | hrest | ⟨-, hhead⟩
      · exact absurd hlead (by decide)
      · exact (hplain '\'' (hrest.subset (by simp))).1 rfl
      · exact (hplain '\'' (List.mem_of_head? hhead)).1 rfl

/-- A path and the reason behind it can be told apart. -/
theorem eq_of_append_reason {e e' : ReadError} {as bs : List Char}
    (h : as ++ ':' :: ' ' :: e.message.toList = bs ++ ':' :: ' ' :: e'.message.toList) : as = bs := by
  have hextends {e e' : ReadError} {more : List Char}
      (h : ':' :: ' ' :: e.message.toList = more ++ ':' :: ' ' :: e'.message.toList) : more = [] := by
    rcases more with _ | ⟨x, _ | ⟨y, more⟩⟩
    · rfl
    · simp at h
    · simp only [List.cons_append, List.cons.injEq] at h
      exact absurd h.2.2 (reason_ne_append e e' more)
  rcases List.append_eq_append_iff.mp h with ⟨more, hbs, hrest⟩ | ⟨more, has, hrest⟩
  · rw [hbs, hextends hrest, List.append_nil]
  · rw [has, hextends hrest, List.append_nil]

end

/-! ## Events that name paths -/

/-- The paths that an event names. -/
def Event.paths : Event → List Path
  | inputMissing path | noSources path | expanding _ path | unreadable path _ => [path]
  | expanded input output => [input, output]
  | _ => []

/-- What an event that names paths is meant to show: the paths as they are. -/
def Event.meant : Event → String
  | inputMissing path => "Input not found: " ++ path.text
  | noSources path => "No .py files found in " ++ path.text
  | expanding count path => "Expanding " ++ count.repr ++ " files from " ++ path.text ++ "..."
  | unreadable path e => "Failed to read " ++ path.text ++ ": " ++ e.message
  | expanded input output => "Expanded: " ++ input.text ++ " -> " ++ output.text
  | _ => ""

/-- Nothing in the paths of an event is taken for markup.  The colon behind a path that cannot be read may end a code,
and a backslash at the end of a path between tags would be counted to the closing one. -/
def Event.Harmless (pictures : Pictures) : Event → Prop
  | inputMissing path | noSources path | expanding _ path => Inert pictures path.text.toList
  | unreadable path e => Inert pictures (path.text.toList ++ [':']) ∧ Inert pictures e.message.toList
  | expanded input output =>
    (Inert pictures input.text.toList ∧ input.text.toList.getLast? ≠ some '\\') ∧
      Inert pictures output.text.toList ∧ output.text.toList.getLast? ≠ some '\\'
  | _ => True

variable {pictures : Pictures}

theorem isStyle_path : IsStyle "path".toList where
  tagText := ⟨rfl, by simp⟩
  opens := ⟨"path", fun _ _ => ⟨rfl, rfl⟩⟩
  shown := fun _ => rfl

theorem bland_expanding (n : Nat) : Bland ("Expanding " ++ n.repr ++ " files from").toList := by
  have hdigits : ∀ c ∈ n.repr.toList, (c ≠ '[' ∧ c ≠ ']' ∧ c ≠ '\\') ∧ c ≠ ':' ∧ c ≠ ' ' ∧ isHidden c = false :=
    fun c hc => plain_of_isDigit (Naming.isDigit_of_mem_repr hc)
  rw [String.toList_append, String.toList_append]
  refine ⟨?_, ?_, codes_of_notMem ?_⟩
  · simp only [List.forall_mem_append]
    exact ⟨⟨by simp, fun c hc => (hdigits c hc).1⟩, by simp⟩
  · simp only [List.forall_mem_append]
    exact ⟨⟨by simp [isHidden], fun c hc => (hdigits c hc).2.2.2⟩, by simp [isHidden]⟩
  · simpa using fun hmem => (hdigits ':' hmem).2.1 rfl

/-- An event that names paths shows what it is meant to show exactly if nothing in them is taken for markup. -/
theorem shows_meant_iff (hbook : Book pictures) {e : Event} (h : e.paths ≠ []) :
    shownWith pictures e.message = .ok e.meant ↔ e.Harmless pictures := by
  cases e with
  | inputMissing path =>
    have hlead : Bland "Input not found:".toList := ⟨by simp, by simp [isHidden], rfl⟩
    exact hlead.shownWith_iff hbook (s := "Input not found: " ++ path.text) (by simp)
  | noSources path =>
    have hlead : Bland "No .py files found in".toList := ⟨by simp, by simp [isHidden], rfl⟩
    exact hlead.shownWith_iff hbook (s := "No .py files found in " ++ path.text) (by simp)
  | expanding count path =>
    have htail : Bland "...".toList := ⟨by simp, by simp [isHidden], rfl⟩
    refine Iff.trans ?_ (htail.inert_append_iff (by simp))
    exact (bland_expanding count).shownWith_iff hbook
      (s := "Expanding " ++ count.repr ++ " files from " ++ path.text ++ "...") (by simp)
  | unreadable path e =>
    have hlead : Bland "Failed to read".toList := ⟨by simp, by simp [isHidden], rfl⟩
    refine Iff.trans ?_ (inert_append_space (.inr (not_closes_reason e)))
    exact hlead.shownWith_iff hbook (s := "Failed to read " ++ path.text ++ ": " ++ e.message) (by simp)
  | expanded input output =>
    have hlead : Bland "Expanded: ".toList := ⟨by simp, by simp [isHidden], rfl⟩
    have hsep : Bland " -> ".toList := ⟨by simp, by simp [isHidden], rfl⟩
    exact shownWith_two_tagged_iff hbook isStyle_path (by simp) hlead hsep
      ("Expanded: [path]" ++ input.text ++ "[/path] -> [path]" ++ output.text ++ "[/path]")
      ("Expanded: " ++ input.text ++ " -> " ++ output.text) (by simp [tagged]) (by simp)
  | _ => exact absurd rfl h

/-! ## Paths from what is meant -/

section

variable (path input output : Path)

@[simp] theorem Event.meant_inputMissing : (Event.inputMissing path).meant = "Input not found: " ++ path.text := rfl

@[simp] theorem Event.meant_noSources : (Event.noSources path).meant = "No .py files found in " ++ path.text := rfl

@[simp] theorem Event.meant_expanding (count : Nat) : (Event.expanding count path).meant =
    "Expanding " ++ count.repr ++ " files from " ++ path.text ++ "..." := rfl

@[simp] theorem Event.meant_unreadable (e : Files.ReadError) : (Event.unreadable path e).meant =
    "Failed to read " ++ path.text ++ ": " ++ e.message := rfl

@[simp] theorem Event.meant_expanded : (Event.expanded input output).meant =
    "Expanded: " ++ input.text ++ " -> " ++ output.text := rfl

end

theorem Event.cases_of_paths {e : Event} (h : e.paths ≠ []) : (∃ p, e = inputMissing p) ∨ (∃ p, e = noSources p) ∨
    (∃ n p, e = expanding n p) ∨ (∃ p r, e = unreadable p r) ∨ ∃ a b, e = expanded a b := by
  cases e <;> simp [paths] at h ⊢

/-- The number of files ends where the blank behind it stands. -/
theorem text_eq_of_expanding {n m : Nat} {p q : Path} (h : (Event.expanding n p).meant = (Event.expanding m q).meant) :
    p.text = q.text := by
  have hdigits (n : Nat) : ∀ c ∈ n.repr.toList, (c != ' ') = true := fun c hc => by
    simpa using (plain_of_isDigit (Naming.isDigit_of_mem_repr hc)).2.2.1
  have hsplit : n.repr.toList ++ (" files from " ++ p.text ++ "...").toList =
      m.repr.toList ++ (" files from " ++ q.text ++ "...").toList := by
    simpa [← String.toList_inj] using h
  have hrest := congrArg (List.dropWhile (· != ' ')) hsplit
  rw [List.dropWhile_append_of_pos (hdigits n), List.dropWhile_append_of_pos (hdigits m)] at hrest
  simpa [String.toList_inj] using hrest

/-- What is meant tells the paths, but for two files that have been expanded from different places to different
places. -/
theorem paths_of_meant_eq {e e' : Event} (h : e.paths ≠ []) (h' : e'.paths ≠ []) (heq : e.meant = e'.meant) :
    e.paths.map Path.text = e'.paths.map Path.text ∨
      ∃ a b a' b', e = .expanded a b ∧ e' = .expanded a' b' ∧ a.text ≠ a'.text ∧ b.text ≠ b'.text := by
  have hchars := congrArg String.toList heq
  obtain ⟨p, rfl⟩ | ⟨p, rfl⟩ | ⟨n, p, rfl⟩ | ⟨p, r, rfl⟩ | ⟨a, b, rfl⟩ := Event.cases_of_paths h <;>
    obtain ⟨q, rfl⟩ | ⟨q, rfl⟩ | ⟨m, q, rfl⟩ | ⟨q, r', rfl⟩ | ⟨a', b', rfl⟩ := Event.cases_of_paths h'
  -- messages of two kinds begin differently
  all_goals try (simp at hchars; done)
  · exact .inl (by simpa [Event.paths, String.toList_inj] using hchars)
  · exact .inl (by simpa [Event.paths, String.toList_inj] using hchars)
  · exact .inl (by simpa [Event.paths] using text_eq_of_expanding heq)
  · have htext : p.text.toList = q.text.toList := eq_of_append_reason (by simpa using hchars)
    exact .inl (by simpa [Event.paths, String.toList_inj] using htext)
  · have hboth : a.text.toList ++ (" -> ".toList ++ b.text.toList) =
        a'.text.toList ++ (" -> ".toList ++ b'.text.toList) := by
      simpa using hchars
    by_cases hinput : a.text = a'.text
    · rw [hinput] at hboth
      have houtput : b.text = b'.text := by simpa [String.toList_inj] using hboth
      exact .inl (by simp [Event.paths, hinput, houtput])
    · refine .inr ⟨a, b, a', b', rfl, rfl, hinput, fun houtput => hinput ?_⟩
      rw [houtput] at hboth
      exact String.toList_inj.mp (List.append_cancel_right hboth)

end Conformance.Command
