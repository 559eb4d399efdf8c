import Mathlib.Data.Nat.Digits.Defs
import Conformance.Program.Reading
import Conformance.Text.Quoted

/-!
# Quoted text is read back

Text between quotes is a literal for that text, whatever characters it holds:

    Literal.evaluate (Text.quoted s) = .ok (.text (s.toList.map Char.toNat))      (evaluate_quoted)
    stringConstant? (Text.quoted s) = some (.text s)                              (stringConstant?_quoted)

Each character is written as an escape or as itself, and either stands for the character again
(`escaped_stands`).  The opening quote cannot be taken for one of three, because no escape starts with a quote.
-/

namespace Conformance

open Source Text

/-! ## Hexadecimal digits -/

/-- The number that hexadecimal digits continue. -/
def hexValue (v : Nat) (ds : List Char) : Nat :=
  ds.foldl (fun v d => v * 16 + (hexDigit? d).getD 0) v

theorem hexDigit?_digitChar : ∀ d, d < 16 → hexDigit? d.digitChar = some d := by
  decide +kernel

theorem hexValue_append (v : Nat) (ds es : List Char) : hexValue v (ds ++ es) = hexValue (hexValue v ds) es :=
  List.foldl_append

theorem hexValue_zeros (k : Nat) : hexValue 0 (List.replicate k '0') = 0 := by
  induction k with
  | zero => rfl
  | succ k ih => exact ih

theorem hexValue_toDigits (n : Nat) : hexValue 0 (Nat.toDigits 16 n) = n := by
  induction n using Nat.strong_induction_on with
  | _ n ih =>
    rw [Nat.toDigits_eq_if (by decide)]
    by_cases h : n < 16
    · rw [if_pos h]
      simp [hexValue, hexDigit?_digitChar n h]
    · have hd := hexDigit?_digitChar (n % 16) (by omega)
      rw [if_neg h, hexValue_append, ih (n / 16) (by omega)]
      show n / 16 * 16 + (hexDigit? (n % 16).digitChar).getD 0 = n
      rw [hd, Option.getD_some]
      omega

theorem isSome_hexDigit?_of_mem_toDigits (n : Nat) {d : Char} (h : d ∈ Nat.toDigits 16 n) :
    (hexDigit? d).isSome = true := by
  induction n using Nat.strong_induction_on with
  | _ n ih =>
    rw [Nat.toDigits_eq_if (by decide)] at h
    by_cases hn : n < 16
    · rw [if_pos hn, List.mem_singleton] at h
      rw [h, hexDigit?_digitChar n hn]
      rfl
    · rw [if_neg hn, List.mem_append, List.mem_singleton] at h
      rcases h with h | h
      · exact ih (n / 16) (by omega) h
      · rw [h, hexDigit?_digitChar (n % 16) (by omega)]
        rfl

theorem isSome_hexDigit?_of_mem_hex {width n : Nat} {d : Char} (h : d ∈ (hex width n).toList) :
    (hexDigit? d).isSome = true := by
  rw [hex, String.toList_ofList, List.mem_append] at h
  rcases h with h | h
  · obtain rfl := (List.mem_replicate.mp h).2
    rfl
  · exact isSome_hexDigit?_of_mem_toDigits n h

/-- A number below `16 ^ width` is written with exactly `width` digits. -/
theorem length_hex {width n : Nat} (hw : 0 < width) (h : n < 16 ^ width) : (hex width n).toList.length = width := by
  have hlen : (Nat.toDigits 16 n).length ≤ width := (Nat.length_toDigits_le_iff (by decide) hw).mpr h
  rw [hex, String.toList_ofList, List.length_append, List.length_replicate]
  omega

theorem hexValue_hex (width n : Nat) : hexValue 0 (hex width n).toList = n := by
  rw [hex, String.toList_ofList, hexValue_append, hexValue_zeros, hexValue_toDigits]

/-! ## Escapes -/

/-- The characters, met outside an escape, stand for one code point, wherever they are. -/
def Stands (w : List Char) (n : Nat) : Prop :=
  ∀ pos rest, ∃ next, unescape true .outside pos (w ++ rest) = (unescape true .outside next rest).map (n :: ·)

/-- The digits after the letter of an escape stand for their number. -/
theorem unescape_digits (letter : Char) (start : Nat) (rest : List Char) :
    ∀ (ds : List Char) (v pos : Nat), ds ≠ [] → (∀ d ∈ ds, (hexDigit? d).isSome = true) →
      hexValue v ds ≤ 0x10FFFF →
      ∃ next, unescape true (.digits letter start ds.length v) pos (ds ++ rest) =
        (unescape true .outside next rest).map (hexValue v ds :: ·)
  | [], _, _, hne, _, _ => absurd rfl hne
  | [d], v, pos, _, hds, hv => by
    obtain ⟨x, hx⟩ := Option.isSome_iff_exists.mp (hds d (List.mem_singleton.mpr rfl))
    have hval : hexValue v [d] = v * 16 + x := by simp [hexValue, hx]
    rw [hval] at hv ⊢
    refine ⟨pos + spelledWidth d, ?_⟩
    simp only [List.length_singleton, List.singleton_append, unescape, hx]
    rw [if_neg (by omega)]
  | d :: e :: ds, v, pos, _, hds, hv => by
    obtain ⟨x, hx⟩ := Option.isSome_iff_exists.mp (hds d List.mem_cons_self)
    have hval : hexValue v (d :: e :: ds) = hexValue (v * 16 + x) (e :: ds) := by simp [hexValue, hx]
    rw [hval] at hv ⊢
    obtain ⟨next, hnext⟩ := unescape_digits letter start rest (e :: ds) (v * 16 + x) (pos + spelledWidth d)
      (List.cons_ne_nil _ _) (fun y hy => hds y (List.mem_cons_of_mem _ hy)) hv
    refine ⟨next, ?_⟩
    rw [← hnext]
    simp only [List.length_cons, List.cons_append, unescape, hx]

/-- A backslash, a letter that opens digits, and as many digits as it needs stand for the number. -/
theorem stands_lettered {letter : Char} {width n : Nat} (hw : 0 < width) (hn : n < 16 ^ width) (h : n ≤ 0x10FFFF)
    (hopen : ∀ pos cs, unescape true .outside pos ('\\' :: letter :: cs) =
      unescape true (.digits letter pos width 0) (pos + 1 + spelledWidth letter) cs) :
    Stands ('\\' :: letter :: (hex width n).toList) n := by
  intro pos rest
  have hlen := length_hex hw hn
  have hval := hexValue_hex width n
  have hne : (hex width n).toList ≠ [] := List.ne_nil_of_length_pos (by rw [hlen]; exact hw)
  obtain ⟨next, hnext⟩ := unescape_digits letter pos rest (hex width n).toList 0 (pos + 1 + spelledWidth letter)
    hne (fun d hd => isSome_hexDigit?_of_mem_hex hd) (by rw [hval]; exact h)
  rw [hlen, hval] at hnext
  exact ⟨next, by rw [List.cons_append, List.cons_append, hopen, hnext]⟩

/-- A character by its number stands for it. -/
theorem numbered_stands {n : Nat} (h : n ≤ 0x10FFFF) : Stands (numbered n).toList n := by
  unfold numbered
  by_cases h2 : n < 0x100
  · rw [if_pos h2, String.toList_append]
    exact stands_lettered (by decide) h2 h fun pos cs => rfl
  · rw [if_neg h2]
    by_cases h4 : n < 0x10000
    · rw [if_pos h4, String.toList_append]
      exact stands_lettered (by decide) h4 h fun pos cs => rfl
    · rw [if_neg h4, String.toList_append]
      exact stands_lettered (by decide) (by omega) h fun pos cs => rfl

theorem toNat_le_lastPoint (c : Char) : c.toNat ≤ 0x10FFFF := by
  rcases c.valid with h | ⟨-, h⟩
  · exact Nat.le_of_lt (Nat.lt_trans h (by decide))
  · exact Nat.le_of_lt_succ h

theorem stands_self {c : Char} (h : c ≠ '\\') : Stands [c] c.toNat := by
  intro pos rest
  refine ⟨pos + spelledWidth c, ?_⟩
  simp only [List.singleton_append, unescape, if_neg h]

/-- A character as it is written between quotes stands for itself. -/
theorem escaped_stands {q : Char} (hq : q = '\'' ∨ q = '"') (c : Char) : Stands (escaped q c).toList c.toNat := by
  unfold escaped
  split_ifs with h1 h2 h3 h4 h5
  · have hc : c = '\'' ∨ c = '"' ∨ c = '\\' := by
      simp only [Bool.or_eq_true, beq_iff_eq] at h1
      rcases h1 with rfl | rfl
      · tauto
      · tauto
    intro pos rest
    refine ⟨pos + 1 + 1, ?_⟩
    rw [String.toList_ofList]
    rcases hc with rfl | rfl | rfl
    · rfl
    · rfl
    · rfl
  · obtain rfl := beq_iff_eq.mp h2
    exact fun pos rest => ⟨pos + 1 + 1, rfl⟩
  · obtain rfl := beq_iff_eq.mp h3
    exact fun pos rest => ⟨pos + 1 + 1, rfl⟩
  · obtain rfl := beq_iff_eq.mp h4
    exact fun pos rest => ⟨pos + 1 + 1, rfl⟩
  · have hc : c ≠ '\\' := by
      rintro rfl
      simp at h1
    have hself : c.toString.toList = [c] := by simp
    rw [hself]
    exact stands_self hc
  · exact numbered_stands (toNat_le_lastPoint c)

/-- Characters that each stand for a code point stand for their code points together. -/
theorem unescape_flatMap {w : Char → List Char} (hw : ∀ c, Stands (w c) c.toNat) (cs : List Char) (pos : Nat) :
    unescape true .outside pos (cs.flatMap w) = .ok (cs.map Char.toNat) := by
  induction cs generalizing pos with
  | nil => rfl
  | cons c cs ih =>
    obtain ⟨next, hnext⟩ := hw c pos (cs.flatMap w)
    rw [List.flatMap_cons, hnext, ih next]
    rfl

/-- Without a backslash nothing is escaped. -/
theorem unescape_plain {cs : List Char} (h : '\\' ∉ cs) (pos : Nat) :
    unescape true .outside pos cs = .ok (cs.map Char.toNat) := by
  induction cs generalizing pos with
  | nil => rfl
  | cons c cs ih =>
    have hc : c ≠ '\\' := by
      rintro rfl
      exact h List.mem_cons_self
    obtain ⟨next, hnext⟩ := stands_self hc pos cs
    rw [List.singleton_append] at hnext
    rw [hnext, ih (fun hmem => h (List.mem_cons_of_mem _ hmem)) next]
    rfl

/-! ## Between the quotes -/

/-- What stands between the quotes of a quoted text. -/
def quotedBody (s : String) : List Char :=
  s.toList.flatMap fun c => (escaped (quoteFor s.toList) c).toList

theorem toList_quoted (s : String) :
    (Text.quoted s).toList = quoteFor s.toList :: (quotedBody s ++ [quoteFor s.toList]) := by
  simp [Text.quoted, quotedBody, List.flatMap_def, Function.comp_def]

theorem quoteFor_cases (cs : List Char) : quoteFor cs = '\'' ∨ quoteFor cs = '"' := by
  unfold quoteFor
  split
  · exact .inr rfl
  · exact .inl rfl

theorem quoteFor_ne {cs : List Char} {x : Char} (h : '\'' ≠ x) (h' : '"' ≠ x) : quoteFor cs ≠ x := by
  rcases quoteFor_cases cs with hq | hq
  · rwa [hq]
  · rwa [hq]

/-- A character that is written in more than one character starts with a backslash. -/
theorem escaped_cases (q c : Char) :
    (∃ ds, (escaped q c).toList = '\\' :: ds) ∨ ((escaped q c).toList = [c] ∧ c ≠ q) := by
  unfold escaped numbered
  split_ifs with h1
  · exact .inl ⟨[c], String.toList_ofList⟩
  · exact .inl ⟨['n'], rfl⟩
  · exact .inl ⟨['r'], rfl⟩
  · exact .inl ⟨['t'], rfl⟩
  · refine .inr ⟨by simp, ?_⟩
    rintro rfl
    simp at h1
  all_goals
    rw [String.toList_append]
    exact .inl ⟨_, rfl⟩

/-- A line break is never written as itself. -/
theorem return_not_mem_escaped {q c : Char} (hq : q ≠ '\r') : '\r' ∉ (escaped q c).toList := by
  have hhex : ∀ width n, '\r' ∉ (hex width n).toList := fun width n h =>
    absurd (isSome_hexDigit?_of_mem_hex h) (by decide)
  unfold escaped numbered
  split_ifs with h1 h2 h3
  · rw [String.toList_ofList]
    simp only [Bool.or_eq_true, beq_iff_eq] at h1
    rcases h1 with rfl | rfl
    · simp [Ne.symm hq]
    · decide
  · decide
  · decide
  · decide
  · intro hmem
    obtain rfl : '\r' = c := by simpa using hmem
    exact h3 rfl
  all_goals
    rw [String.toList_append, List.mem_append, not_or]
    exact ⟨by decide, hhex _ _⟩

theorem unifyBreaks_eq_self {cs : List Char} (h : '\r' ∉ cs) : unifyBreaks cs = cs := by
  induction cs with
  | nil => rfl
  | cons c cs ih =>
    have hc : c ≠ '\r' := by
      rintro rfl
      exact h List.mem_cons_self
    rw [unifyBreaks, if_neg hc, ih (fun hmem => h (List.mem_cons_of_mem _ hmem))]
    rintro ds rfl
    exact absurd rfl hc

/-- The quotes around a body that does not start with one are one quote at each end. -/
theorem literalBody_eq {q : Char} {body : List Char} (h : body.head? ≠ some q) :
    literalBody (q :: (body ++ [q])) = body := by
  match body with
  | [] => rfl
  | b :: cs =>
    have hb : b ≠ q := by
      rintro rfl
      exact h rfl
    cases cs with
    | nil => simp [literalBody, hb]
    | cons c cs =>
      have hlast : (b :: c :: cs ++ [q]).dropLast = b :: c :: cs := List.dropLast_concat
      simp only [literalBody, List.cons_append]
      rw [if_neg (fun hq => hb hq.1)]
      exact hlast

theorem head?_quotedBody_ne (s : String) : (quotedBody s).head? ≠ some (quoteFor s.toList) := by
  have hq : quoteFor s.toList ≠ '\\' := quoteFor_ne (by decide) (by decide)
  unfold quotedBody
  generalize quoteFor s.toList = q at hq ⊢
  cases s.toList with
  | nil => simp
  | cons c cs =>
    rw [List.flatMap_cons]
    rcases escaped_cases q c with ⟨ds, hds⟩ | ⟨hself, hc⟩
    · rw [hds]
      simpa using hq.symm
    · rw [hself]
      simpa using hc

theorem return_not_mem_quotedBody (s : String) : '\r' ∉ quotedBody s := by
  intro hmem
  obtain ⟨c, -, hc⟩ := List.mem_flatMap.mp hmem
  exact return_not_mem_escaped (quoteFor_ne (by decide) (by decide)) hc

/-- A literal without letters in front, whose body neither starts with its quote nor holds a line break. -/
theorem evaluate_of_toList {literal : String} {q : Char} {body : List Char} (h : literal.toList = q :: (body ++ [q]))
    (hq : q.isAlpha = false) (hhead : body.head? ≠ some q) (hbreak : '\r' ∉ body) :
    Literal.evaluate literal =
      if '\\' ∈ body then (unescape true .outside 0 body).map .text else .ok (.text (body.map Char.toNat)) := by
  have htake : (q :: (body ++ [q])).takeWhile Char.isAlpha = [] := by
    rw [List.takeWhile_cons, if_neg (by simp [hq])]
  have hdrop : (q :: (body ++ [q])).dropWhile Char.isAlpha = q :: (body ++ [q]) := by
    rw [List.dropWhile_cons, if_neg (by simp [hq])]
  have hword : ([] : List Char).contains 'b' = false := rfl
  have hraw : ([] : List Char).contains 'r' = false := rfl
  simp only [Literal.evaluate, h, htake, hdrop, literalBody_eq hhead, unifyBreaks_eq_self hbreak, List.map_nil,
    hword, hraw, Bool.false_or, Bool.false_eq_true, if_false]
  by_cases hslash : '\\' ∈ body
  · rw [if_pos hslash, List.contains_iff_mem.mpr hslash]
    cases unescape true .outside 0 body <;> rfl
  · rw [if_neg hslash, if_pos (by simpa using hslash)]
    rfl

theorem evaluate_quoted (s : String) :
    Literal.evaluate (Text.quoted s) = .ok (.text (s.toList.map Char.toNat)) := by
  have hbody : unescape true .outside 0 (quotedBody s) = .ok (s.toList.map Char.toNat) :=
    unescape_flatMap (escaped_stands (quoteFor_cases s.toList)) s.toList 0
  have halpha : (quoteFor s.toList).isAlpha = false := by
    rcases quoteFor_cases s.toList with h | h
    · rw [h]
      decide
    · rw [h]
      decide
  rw [evaluate_of_toList (toList_quoted s) halpha (head?_quotedBody_ne s) (return_not_mem_quotedBody s)]
  by_cases hslash : '\\' ∈ quotedBody s
  · rw [if_pos hslash, hbody]
    rfl
  · have hplain := unescape_plain hslash 0
    rw [hbody, Except.ok.injEq] at hplain
    rw [if_neg hslash, hplain]

theorem stringConstant?_quoted (s : String) : stringConstant? (Text.quoted s) = some (.text s) := by
  have hpoints : (s.toList.map Char.toNat).map Char.ofNat = s.toList := by
    simp [Function.comp_def]
  unfold stringConstant?
  rw [evaluate_quoted]
  simp only [hpoints, String.ofList_toList]

end Conformance
