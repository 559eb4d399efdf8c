import Mathlib
import Conformance.Proofs.Implementation.Names
import Conformance.Proofs.Marker.Recognition
import Conformance.Proofs.Settings.Precedence

/-!
# What settings are valid, and what is reported

Each field has a rule, which is said here without the checks: a beginning of tests can be continued to an identifier
(`BeginsTest`), a module name is made of identifiers (`DottedName`), a level is named in any case (`NamesLevel`).  What
becomes of a field follows from its rule (`TextOutcome`, `AliasesOutcome`).  A table of settings is accepted with fields
that keep their rules, or all values that break theirs are reported in the order of the fields (`validate_exact`).
-/

namespace Conformance

open Text

/-! ## The beginning of tests -/

/-- The text starts with `test`, and some text behind it makes it an identifier. -/
def BeginsTest (s : String) : Prop :=
  (∃ rest, s = "test" ++ rest) ∧ ∃ ending, Identifier.isIdentifier (s ++ ending) = true

/-- Whether the text can be continued to an identifier does not depend on the letter that is tried. -/
theorem isTestPrefix_iff {s : String} : isTestPrefix s = true ↔ BeginsTest s := by
  constructor
  · intro h
    obtain ⟨htest, hletter⟩ := Bool.and_eq_true_iff.mp h
    obtain ⟨rest, hrest⟩ := isPrefixOf_iff.mp htest
    refine ⟨⟨String.ofList rest, ?_⟩, "x", hletter⟩
    apply String.toList_inj.mp
    simp [← hrest]
  · rintro ⟨⟨rest, rfl⟩, ending, hidentifier⟩
    have hne : ("test" ++ rest).toList ≠ [] := by simp
    have hstart : "test".toList <+: ("test" ++ rest).toList := by
      rw [String.toList_append]
      exact List.prefix_append _ _
    have hname := ((isIdentifier_append_iff hne).mp hidentifier).1
    have hx : Identifier.isIdentifier "x" = true := by decide
    exact Bool.and_eq_true_iff.mpr
      ⟨isPrefixOf_iff.mpr hstart, isIdentifier_append hname (Source.isContinue_of_isIdentifier hx)⟩

/-! ## Module names -/

/-- Identifiers with dots between them. -/
def DottedName (s : String) : Prop :=
  ∃ segments, segments ≠ [] ∧ (∀ n ∈ segments, Identifier.isIdentifier n = true) ∧ ".".intercalate segments = s

theorem isModuleName_iff_segments {s : String} :
    isModuleName s = true ↔ ∀ n ∈ segmentsOf s, Identifier.isIdentifier n = true := by
  unfold isModuleName segmentsOf
  rw [List.all_eq_true, List.forall_mem_map]
  refine forall₂_congr fun cs _ => ?_
  rw [Identifier.isIdentifier, String.toList_ofList]

theorem segmentsOf_ne_nil (s : String) : segmentsOf s ≠ [] := by
  unfold segmentsOf
  rw [ne_eq, List.map_eq_nil_iff]
  exact List.splitOn_ne_nil '.' s.toList

theorem isModuleName_iff {s : String} : isModuleName s = true ↔ DottedName s := by
  rw [isModuleName_iff_segments]
  constructor
  · intro h
    have hdots : ∀ n ∈ segmentsOf s, '.' ∉ n.toList := fun n hn => not_mem_dot_of_isIdentifier (h n hn)
    exact ⟨segmentsOf s, segmentsOf_ne_nil s, h, (intercalate_eq_iff (segmentsOf_ne_nil s) hdots).mpr rfl⟩
  · rintro ⟨segments, hne, h, hs⟩
    have hdots : ∀ n ∈ segments, '.' ∉ n.toList := fun n hn => not_mem_dot_of_isIdentifier (h n hn)
    rw [← (intercalate_eq_iff hne hdots).mp hs]
    exact h

/-! ## Levels -/

/-- The text is the name of a level, in any case and with white space around it. -/
def NamesLevel (s : String) (l : Level) : Prop :=
  l ∈ Level.configurable ∧ ∃ before name after, s = before ++ name ++ after ∧ before.toList.all isSpace = true ∧
    after.toList.all isSpace = true ∧ name.toList.map upperCase = l.name.toList

theorem dropWhile_append_of_all {α : Type} {p : α → Bool} {front rest : List α} (hfront : front.all p = true)
    (hrest : ∀ a ∈ rest.head?, p a = false) : (front ++ rest).dropWhile p = rest := by
  rw [List.dropWhile_append_of_pos (List.all_eq_true.mp hfront)]
  cases rest with
  | nil => rfl
  | cons a rest => rw [List.dropWhile_cons_of_neg]; simp [hrest a rfl]

/-- A name without white space is what trimming leaves exactly if only white space stands around it. -/
theorem trim_eq_iff {s name : String} (hname : ∀ c ∈ name.toList, isSpace c = false) (hne : name.toList ≠ []) :
    trim s = name ↔ ∃ before after, s.toList = before ++ name.toList ++ after ∧ before.all isSpace = true ∧
      after.all isSpace = true := by
  unfold trim
  constructor
  · rintro rfl
    refine ⟨s.toList.takeWhile isSpace, ((s.toList.dropWhile isSpace).reverse.takeWhile isSpace).reverse, ?_,
      List.all_takeWhile, ?_⟩
    · rw [String.toList_ofList, List.append_assoc, ← List.reverse_append, List.takeWhile_append_dropWhile,
        List.reverse_reverse, List.takeWhile_append_dropWhile]
    · rw [List.all_reverse]
      exact List.all_takeWhile
  · rintro ⟨before, after, hs, hbefore, hafter⟩
    have hfront : s.toList.dropWhile isSpace = name.toList ++ after := by
      rw [hs, List.append_assoc]
      refine dropWhile_append_of_all hbefore fun c hc => ?_
      rw [List.head?_append_of_ne_nil _ hne] at hc
      exact hname c (List.mem_of_head? hc)
    have hback : (name.toList ++ after).reverse.dropWhile isSpace = name.toList.reverse := by
      rw [List.reverse_append]
      refine dropWhile_append_of_all (by rwa [List.all_reverse]) fun c hc => ?_
      exact hname c (List.mem_reverse.mp (List.mem_of_head? hc))
    simp only [hfront, hback, List.reverse_reverse, String.ofList_toList]

theorem isSpace_upperCase_ascii :
    (List.range 128).all (fun n => isSpace (upperCase (Char.ofNat n)) == isSpace (Char.ofNat n)) = true := by decide

/-- Upper case keeps white space. -/
theorem isSpace_upperCase (c : Char) : isSpace (upperCase c) = isSpace c := by
  by_cases hc : c.toNat < 128
  · have hn := List.all_eq_true.mp isSpace_upperCase_ascii c.toNat (List.mem_range.mpr hc)
    rw [Char.ofNat_toNat] at hn
    exact beq_iff_eq.mp hn
  · unfold upperCase
    split
    · next hdotless =>
      rw [beq_iff_eq.mp hdotless]
      decide
    · have hupper : c.toUpper = c := by
        unfold Char.toUpper
        rw [dif_neg]
        rintro ⟨-, hz⟩
        have : c.toNat ≤ 122 := hz
        omega
      rw [hupper]

theorem all_isSpace_map_upperCase (cs : List Char) : (cs.map upperCase).all isSpace = cs.all isSpace := by
  rw [List.all_map]
  exact congrArg (fun p => List.all cs p) (funext isSpace_upperCase)

theorem configurable_names :
    (Level.configurable.all fun l => !l.name.toList.isEmpty && l.name.toList.all fun c => !isSpace c) = true := by
  decide

theorem find?_configurable {l : Level} (h : l ∈ Level.configurable) :
    (Level.configurable.find? fun k => k.name == l.name) = some l := by
  simp only [Level.configurable, List.mem_cons, List.not_mem_nil, or_false] at h
  rcases h with rfl | rfl | rfl | rfl | rfl <;> decide

theorem readLevel?_eq_some_iff {s : String} {l : Level} : readLevel? s = some l ↔ NamesLevel s l := by
  have hread : readLevel? s = some l ↔
      l ∈ Level.configurable ∧ trim (String.ofList (s.toList.map upperCase)) = l.name := by
    unfold readLevel?
    generalize trim (String.ofList (s.toList.map upperCase)) = name
    constructor
    · intro h
      have hname := List.find?_some h
      exact ⟨List.mem_of_find?_eq_some h, (beq_iff_eq.mp hname).symm⟩
    · rintro ⟨hl, rfl⟩
      exact find?_configurable hl
  rw [hread]
  refine and_congr_right fun hl => ?_
  have hchars := List.all_eq_true.mp configurable_names l hl
  rw [Bool.and_eq_true_iff] at hchars
  rw [trim_eq_iff (by simpa using hchars.2) (by simpa using hchars.1), String.toList_ofList]
  constructor
  · rintro ⟨before, after, hs, hbefore, hafter⟩
    obtain ⟨front, back, hfront, hmap, rfl⟩ := List.map_eq_append_iff.mp hs
    obtain ⟨first, name, hfirst, rfl, hname⟩ := List.map_eq_append_iff.mp hmap
    refine ⟨String.ofList first, String.ofList name, String.ofList back, ?_, ?_, ?_, ?_⟩
    · apply String.toList_inj.mp
      simp [hfront, hfirst]
    · rwa [String.toList_ofList, ← all_isSpace_map_upperCase]
    · rwa [String.toList_ofList, ← all_isSpace_map_upperCase]
    · rwa [String.toList_ofList]
  · rintro ⟨before, name, after, rfl, hbefore, hafter, hname⟩
    refine ⟨before.toList.map upperCase, after.toList.map upperCase, ?_, ?_, ?_⟩
    · rw [String.toList_append, String.toList_append, List.map_append, List.map_append, hname]
    · rwa [all_isSpace_map_upperCase]
    · rwa [all_isSpace_map_upperCase]

/-! ## Outcomes of fields -/

/-- What becomes of a field that is one text, where `Accepts` is its rule and says which value the text is taken for. -/
inductive TextOutcome {α : Type} (field : String) (default : α) (Accepts : String → α → Prop)
    (reason : String → Reason) : Option Datum → Except (List Problem) α → Prop where
  | absent : TextOutcome field default Accepts reason none (.ok default)
  | kept {s : String} {a : α} (h : Accepts s a) : TextOutcome field default Accepts reason (some (.text s)) (.ok a)
  | broken {s : String} (h : ∀ a, ¬ Accepts s a) :
      TextOutcome field default Accepts reason (some (.text s)) (.error [⟨[.field field], reason s⟩])
  | noText {d : Datum} (h : ∀ s, d ≠ .text s) :
      TextOutcome field default Accepts reason (some d) (.error [⟨[.field field], .notText⟩])

/-- What becomes of `test_prefix`. -/
abbrev PrefixOutcome : Option Datum → Except (List Problem) String → Prop :=
  TextOutcome "test_prefix" "test_" (fun s a => a = s ∧ BeginsTest s) .badPrefix

/-- What becomes of `log_level`. -/
abbrev LevelOutcome : Option Datum → Except (List Problem) Level → Prop :=
  TextOutcome "log_level" .warning NamesLevel .unknownLevel

/-- What becomes of `module_aliases`: an element that is no text is a failure of its own, and if there is none, the
first text that is no module name is a failure of the field. -/
inductive AliasesOutcome : Option Datum → Except (List Problem) (List String) → Prop where
  | absent : AliasesOutcome none (.ok ["tested_trait", "tt"])
  | kept {names : List String} (h : ∀ n ∈ names, DottedName n) :
      AliasesOutcome (some (.list (names.map .text))) (.ok names)
  | broken {before after : List String} {n : String} (hbefore : ∀ m ∈ before, DottedName m) (h : ¬ DottedName n) :
      AliasesOutcome (some (.list ((before ++ n :: after).map .text)))
        (.error [⟨[.field "module_aliases"], .badAlias n⟩])
  | noTexts {items : List Datum} {indices : List Nat} (hne : indices ≠ []) (hsorted : indices.Pairwise (· < ·))
      (h : ∀ i, i ∈ indices ↔ ∃ d, items[i]? = some d ∧ ∀ s, d ≠ .text s) :
      AliasesOutcome (some (.list items))
        (.error (indices.map fun i => ⟨[.field "module_aliases", .index i], .notText⟩))
  | noList {d : Datum} (h : ∀ items, d ≠ .list items) :
      AliasesOutcome (some d) (.error [⟨[.field "module_aliases"], .notList⟩])

/-- A check that keeps the rule of a text gives the outcome of the field. -/
theorem textOutcome_checkField {α : Type} {check : Datum → Except (List Reason) α} {Accepts : String → α → Prop}
    {reason : String → Reason}
    (htext : ∀ s, (∃ a, Accepts s a ∧ check (.text s) = .ok a) ∨
      (∀ a, ¬ Accepts s a) ∧ check (.text s) = .error [reason s])
    (hother : ∀ d, (∀ s, d ≠ .text s) → check d = .error [.notText]) (entries : List (String × Datum))
    (field : String) (default : α) :
    TextOutcome field default Accepts reason (Datum.find? field entries)
      (checkField entries field default (placed check)) := by
  unfold checkField
  cases Datum.find? field entries with
  | none => exact .absent
  | some d =>
    by_cases hd : ∃ s, d = .text s
    · obtain ⟨s, rfl⟩ := hd
      rcases htext s with ⟨a, ha, hcheck⟩ | ⟨ha, hcheck⟩
      · simp only [placed, hcheck]
        exact .kept ha
      · simp only [placed, hcheck]
        exact .broken ha
    · have hd : ∀ s, d ≠ .text s := fun s hs => hd ⟨s, hs⟩
      simp only [placed, hother d hd]
      exact .noText hd

theorem prefixOutcome (entries : List (String × Datum)) :
    PrefixOutcome (Datum.find? "test_prefix" entries) (checkField entries "test_prefix" "test_" (placed checkPrefix)) := by
  refine textOutcome_checkField (fun s => ?_) (fun d hd => ?_) entries _ _
  · unfold checkPrefix
    by_cases h : isTestPrefix s = true
    · exact .inl ⟨s, ⟨rfl, isTestPrefix_iff.mp h⟩, if_pos h⟩
    · exact .inr ⟨fun a ha => h (isTestPrefix_iff.mpr ha.2), if_neg h⟩
  · cases d with
    | text s => exact absurd rfl (hd s)
    | _ => rfl

theorem levelOutcome (entries : List (String × Datum)) :
    LevelOutcome (Datum.find? "log_level" entries) (checkField entries "log_level" .warning (placed checkLevel)) := by
  refine textOutcome_checkField (fun s => ?_) (fun d hd => ?_) entries _ _
  · cases h : readLevel? s with
    | some l => exact .inl ⟨l, readLevel?_eq_some_iff.mp h, by simp only [checkLevel, h]⟩
    | none =>
      refine .inr ⟨fun l hl => ?_, by simp only [checkLevel, h]⟩
      rw [readLevel?_eq_some_iff.mpr hl] at h
      cases h
  · cases d with
    | text s => exact absurd rfl (hd s)
    | _ => rfl

/-! ### Module names -/

theorem textOf?_eq_none {d : Datum} : textOf? d = none ↔ ∀ s, d ≠ .text s := by
  cases d <;> simp [textOf?]

theorem mem_nonTexts {items : List Datum} {i : Nat} :
    i ∈ nonTexts items ↔ ∃ d, items[i]? = some d ∧ ∀ s, d ≠ .text s := by
  unfold nonTexts
  constructor
  · intro h
    obtain ⟨⟨d, j⟩, hd, rfl⟩ := List.mem_map.mp h
    obtain ⟨hmem, hnone⟩ := List.mem_filter.mp hd
    exact ⟨d, List.mem_zipIdx_iff_getElem?.mp hmem, textOf?_eq_none.mp (Option.isNone_iff_eq_none.mp hnone)⟩
  · rintro ⟨d, hi, hd⟩
    refine List.mem_map.mpr ⟨(d, i), List.mem_filter.mpr ⟨List.mem_zipIdx_iff_getElem?.mpr hi, ?_⟩, rfl⟩
    exact Option.isNone_iff_eq_none.mpr (textOf?_eq_none.mpr hd)

theorem pairwise_nonTexts (items : List Datum) : (nonTexts items).Pairwise (· < ·) := by
  have hindices : (items.zipIdx.map Prod.snd).Pairwise (· < ·) := by
    rw [List.zipIdx_map_snd]
    exact List.pairwise_lt_range'
  exact hindices.sublist (List.filter_sublist.map Prod.snd)

theorem map_text_of_nonTexts {items : List Datum} (h : nonTexts items = []) :
    (items.filterMap textOf?).map .text = items := by
  have htexts : ∀ d ∈ items, ∃ s, d = .text s := by
    intro d hd
    obtain ⟨i, hi⟩ := List.mem_iff_getElem?.mp hd
    by_contra hnone
    have hmem : i ∈ nonTexts items := mem_nonTexts.mpr ⟨d, hi, fun s hs => hnone ⟨s, hs⟩⟩
    rw [h] at hmem
    cases hmem
  clear h
  induction items with
  | nil => rfl
  | cons d items ih =>
    obtain ⟨s, rfl⟩ := htexts d List.mem_cons_self
    have htext : textOf? (.text s) = some s := rfl
    rw [List.filterMap_cons_some htext, List.map_cons, ih fun d hd => htexts d (List.mem_cons_of_mem _ hd)]

theorem aliasesOutcome (entries : List (String × Datum)) :
    AliasesOutcome (Datum.find? "module_aliases" entries)
      (checkField entries "module_aliases" ["tested_trait", "tt"] checkAliases) := by
  unfold checkField
  cases Datum.find? "module_aliases" entries with
  | none => exact .absent
  | some d =>
    change AliasesOutcome (some d) (checkAliases (.field "module_aliases") d)
    unfold checkAliases
    split
    · next items =>
      split
      · next hnone =>
        have hitems := map_text_of_nonTexts hnone
        generalize items.filterMap textOf? = names at hitems
        subst hitems
        cases hfind : names.find? fun n => !isModuleName n with
        | none =>
          simp only [hfind]
          refine .kept fun n hn => isModuleName_iff.mp ?_
          simpa using List.find?_eq_none.mp hfind n hn
        | some n =>
          simp only [hfind]
          obtain ⟨hn, before, after, rfl, hbefore⟩ := List.find?_eq_some_iff_append.mp hfind
          refine .broken (fun m hm => isModuleName_iff.mp ?_) fun h => ?_
          · simpa using hbefore m hm
          · simp [isModuleName_iff.mpr h] at hn
      · next hsome =>
        exact .noTexts hsome (pairwise_nonTexts items) fun i => mem_nonTexts
    · next hlist => exact .noList hlist

/-! ## Settings -/

namespace Settings

/-- Settings whose fields keep their rules. -/
structure Valid (s : Settings) : Prop where
  beginsTest : BeginsTest s.testPrefix
  dottedNames : ∀ n ∈ s.aliases, DottedName n
  configurable : s.logLevel ∈ Level.configurable

/-- Settings as the table that they could have been read from. -/
def toDatum (s : Settings) : Datum :=
  .table [("test_prefix", .text s.testPrefix), ("module_aliases", .list (s.aliases.map .text)),
    ("log_level", .text s.logLevel.name)]

/-- The keys that are looked at. -/
def fieldNames : List String := ["test_prefix", "module_aliases", "log_level"]

theorem validate_table (entries : List (String × Datum)) :
    Settings.validate (.table entries) =
      assembled (checkField entries "test_prefix" "test_" (placed checkPrefix))
        (checkField entries "module_aliases" ["tested_trait", "tt"] checkAliases)
        (checkField entries "log_level" .warning (placed checkLevel)) := rfl

/-! ### Accepted settings -/

theorem beginsTest_of_outcome {d : Option Datum} {s : String} (h : PrefixOutcome d (.ok s)) : BeginsTest s := by
  cases h with
  | absent => exact ⟨⟨"_", rfl⟩, "", by decide⟩
  | kept h => exact h.1 ▸ h.2

theorem dottedNames_of_outcome {d : Option Datum} {names : List String} (h : AliasesOutcome d (.ok names)) :
    ∀ n ∈ names, DottedName n := by
  cases h with
  | absent =>
    have hdefault : ["tested_trait", "tt"].all isModuleName = true := by decide
    exact fun n hn => isModuleName_iff.mp (List.all_eq_true.mp hdefault n hn)
  | kept h => exact h

theorem configurable_of_outcome {d : Option Datum} {l : Level} (h : LevelOutcome d (.ok l)) :
    l ∈ Level.configurable := by
  cases h with
  | absent => decide
  | kept h => exact h.1

theorem checkPrefix_text {s : String} (h : BeginsTest s) : checkPrefix (.text s) = .ok s :=
  if_pos (isTestPrefix_iff.mpr h)

theorem checkAliases_texts (field : PathStep) {names : List String} (h : ∀ n ∈ names, DottedName n) :
    checkAliases field (.list (names.map .text)) = .ok names := by
  have hnone : nonTexts (names.map .text) = [] := by
    refine List.eq_nil_iff_forall_not_mem.mpr fun i hi => ?_
    obtain ⟨d, hd, hother⟩ := mem_nonTexts.mp hi
    rw [List.getElem?_map] at hd
    obtain ⟨n, -, rfl⟩ := Option.map_eq_some_iff.mp hd
    exact hother n rfl
  have htexts : (names.map .text).filterMap textOf? = names := by
    rw [List.filterMap_map]
    exact List.filterMap_some
  have hfind : (names.find? fun n => !isModuleName n) = none := by
    rw [List.find?_eq_none]
    intro n hn
    simp [isModuleName_iff.mpr (h n hn)]
  simp only [checkAliases, hnone, htexts, hfind]

/-- The name of a level names it: upper case leaves it as it is. -/
theorem namesLevel_name {l : Level} (h : l ∈ Level.configurable) : NamesLevel l.name l := by
  refine ⟨h, "", l.name, "", by simp, rfl, rfl, ?_⟩
  simp only [Level.configurable, List.mem_cons, List.not_mem_nil, or_false] at h
  rcases h with rfl | rfl | rfl | rfl | rfl <;> decide

theorem checkLevel_name {l : Level} (h : l ∈ Level.configurable) : checkLevel (.text l.name) = .ok l := by
  simp only [checkLevel, readLevel?_eq_some_iff.mpr (namesLevel_name h)]

theorem validate_toDatum {s : Settings} (h : s.Valid) : Settings.validate s.toDatum = .ok s := by
  unfold toDatum
  rw [validate_table, assembled_eq_ok]
  refine ⟨?_, ?_, ?_⟩
  · change placed checkPrefix _ (.text s.testPrefix) = _
    rw [placed, checkPrefix_text h.beginsTest]
    rfl
  · exact checkAliases_texts _ h.dottedNames
  · change placed checkLevel _ (.text s.logLevel.name) = _
    rw [placed, checkLevel_name h.configurable]
    rfl

/-! ### Refused settings -/

theorem ok_of_textOutcome {α : Type} {field : String} {default : α} {Accepts : String → α → Prop}
    {reason : String → Reason} {d : Option Datum} {p : Except (List Problem) α}
    (h : TextOutcome field default Accepts reason d p) (hp : problemsOf p = []) : ∃ a, p = .ok a := by
  cases h with
  | absent => exact ⟨_, rfl⟩
  | kept h => exact ⟨_, rfl⟩
  | broken h => cases hp
  | noText h => cases hp

theorem ok_of_aliasesOutcome {d : Option Datum} {p : Except (List Problem) (List String)} (h : AliasesOutcome d p)
    (hp : problemsOf p = []) : ∃ names, p = .ok names := by
  cases h with
  | absent => exact ⟨_, rfl⟩
  | kept h => exact ⟨_, rfl⟩
  | broken hbefore h => cases hp
  | noTexts hne hsorted h => exact absurd (List.map_eq_nil_iff.mp hp) hne
  | noList h => cases hp

/-- A refusal has a failure to report. -/
theorem problems_ne_nil {dp da dl : Option Datum} {p : Except (List Problem) String}
    {a : Except (List Problem) (List String)} {l : Except (List Problem) Level} {ps : List Problem}
    (hp : PrefixOutcome dp p) (ha : AliasesOutcome da a) (hl : LevelOutcome dl l) (h : assembled p a l = .error ps) :
    ps ≠ [] := by
  rintro rfl
  obtain ⟨⟨hp', ha'⟩, hl'⟩ := List.append_eq_nil_iff.mp (problems_of_assembled h).symm |>.imp_left
    List.append_eq_nil_iff.mp
  obtain ⟨_, rfl⟩ := ok_of_textOutcome hp hp'
  obtain ⟨_, rfl⟩ := ok_of_aliasesOutcome ha ha'
  obtain ⟨_, rfl⟩ := ok_of_textOutcome hl hl'
  cases h

/-! ### Other keys -/

theorem find?_filter_of_mem {keys : List String} {key : String} (h : key ∈ keys) (entries : List (String × Datum)) :
    Datum.find? key (entries.filter fun e => keys.contains e.1) = Datum.find? key entries := by
  unfold Datum.find?
  rw [← List.filter_reverse, List.find?_filter]
  congr 2
  funext e
  by_cases he : e.1 = key
  · simp [he, h]
  · simp [he]

theorem validate_filter (entries : List (String × Datum)) :
    Settings.validate (.table (entries.filter fun e => fieldNames.contains e.1)) =
      Settings.validate (.table entries) := by
  have hfind {key : String} (h : key ∈ fieldNames) := find?_filter_of_mem h entries
  rw [validate_table, validate_table]
  unfold checkField
  rw [hfind (by decide), hfind (by decide), hfind (by decide)]

/-- Each table of settings is accepted or refused by the rules of the fields.  It is accepted with the fields that it
gives, and the usual ones for the others, if all of them keep their rules.  Else there are failures, namely those of the
fields that break their rule, in the order of the fields.  Other keys do not matter.  Settings that were accepted are
accepted again, as they are. -/
theorem validate_exact (entries : List (String × Datum)) :
    (∃ p a l, PrefixOutcome (Datum.find? "test_prefix" entries) p ∧
      AliasesOutcome (Datum.find? "module_aliases" entries) a ∧ LevelOutcome (Datum.find? "log_level" entries) l ∧
      ((∃ s, Settings.validate (.table entries) = .ok s ∧ s.Valid ∧ p = .ok s.testPrefix ∧ a = .ok s.aliases ∧
          l = .ok s.logLevel) ∨
        ∃ ps, Settings.validate (.table entries) = .error ps ∧ ps ≠ [] ∧
          ps = problemsOf p ++ problemsOf a ++ problemsOf l)) ∧
    Settings.validate (.table (entries.filter fun e => fieldNames.contains e.1)) = Settings.validate (.table entries) ∧
    ∀ s, Settings.validate (.table entries) = .ok s → Settings.validate s.toDatum = .ok s := by
  have hp := prefixOutcome entries
  have ha := aliasesOutcome entries
  have hl := levelOutcome entries
  have hassembled : Settings.validate (.table entries) = assembled _ _ _ := validate_table entries
  generalize checkField entries "test_prefix" "test_" (placed checkPrefix) = p at hp hassembled
  generalize checkField entries "module_aliases" ["tested_trait", "tt"] checkAliases = a at ha hassembled
  generalize checkField entries "log_level" .warning (placed checkLevel) = l at hl hassembled
  have hvalid : ∀ s, assembled p a l = .ok s →
      s.Valid ∧ p = .ok s.testPrefix ∧ a = .ok s.aliases ∧ l = .ok s.logLevel := by
    intro s hs
    obtain ⟨rfl, rfl, rfl⟩ := assembled_eq_ok.mp hs
    exact ⟨⟨beginsTest_of_outcome hp, dottedNames_of_outcome ha, configurable_of_outcome hl⟩, rfl, rfl, rfl⟩
  rw [hassembled]
  refine ⟨⟨p, a, l, hp, ha, hl, ?_⟩, (validate_filter entries).trans hassembled, fun s hs => ?_⟩
  · cases hresult : assembled p a l with
    | ok s => exact .inl ⟨s, rfl, hvalid s hresult⟩
    | error ps => exact .inr ⟨ps, rfl, problems_ne_nil hp ha hl hresult, problems_of_assembled hresult⟩
  · exact validate_toDatum (hvalid s hs).1

/-- The settings of a table with a level in small letters between blanks and a key that is no field. -/
theorem validate_exact_spacedLevel :
    Settings.validate (.table [("log_level", .text " info\t"), ("retries", .integer 3)]) = .ok { logLevel := .info } ∧
      Settings.validate (toDatum { logLevel := .info }) = .ok { logLevel := .info } := by
  have hread : Settings.validate (.table [("log_level", .text " info\t"), ("retries", .integer 3)]) =
      .ok { logLevel := .info } := by rfl
  exact ⟨hread, (validate_exact _).2.2 _ hread⟩

end Settings

end Conformance
