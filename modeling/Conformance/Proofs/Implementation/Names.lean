import Conformance.Proofs.Expansion.Numbering
import Conformance.Proofs.Implementation.Shape
import Conformance.Proofs.Source.Identified
import Conformance.Settings.Validation

/-!
# Names of generated functions

The name of a generated function is put together from a beginning, a fixed part, the short name of the interface and a
number.  It is an identifier and no keyword, and it is discovered as a test unless the tests of the class are run in
place (`expanded_names_valid`).

The check of settings only asks whether the beginning with a letter after it is an identifier.  That is enough, since
everything that is put behind the beginning may stand in an identifier (`isIdentifier_append_iff`).
-/

namespace Conformance

open Source SyntaxTree Text.Identifier

/-! ## Identifiers -/

/-- Behind an identifier anything goes that may stand in one. -/
theorem isIdentifier_append_iff {s t : String} (hs : s.toList ≠ []) :
    isIdentifier (s ++ t) = true ↔ isIdentifier s = true ∧ ∀ c ∈ t.toList, isContinue c = true := by
  obtain ⟨c, cs, hchars⟩ := List.exists_cons_of_ne_nil hs
  rw [isIdentifier, isIdentifier, String.toList_append, hchars, List.cons_append, isName, isName, List.all_append,
    Bool.and_eq_true, Bool.and_eq_true, Bool.and_eq_true, List.all_eq_true, List.all_eq_true, and_assoc]

theorem isIdentifier_append {s t : String} (hs : isIdentifier s = true) (ht : ∀ c ∈ t.toList, isContinue c = true) :
    isIdentifier (s ++ t) = true := by
  refine (isIdentifier_append_iff fun hnil => ?_).mpr ⟨hs, ht⟩
  rw [isIdentifier, hnil] at hs
  cases hs

theorem isPrefixOf_iff {p s : String} : p.isPrefixOf s = true ↔ p.toList <+: s.toList :=
  String.startsWith_string_iff

/-- A beginning that is accepted is an identifier. -/
theorem isIdentifier_of_isTestPrefix {s : String} (h : isTestPrefix s = true) :
    "test".toList <+: s.toList ∧ isIdentifier s = true := by
  obtain ⟨htest, hletter⟩ := Bool.and_eq_true_iff.mp h
  have hstart := isPrefixOf_iff.mp htest
  refine ⟨hstart, ((isIdentifier_append_iff fun hnil => ?_).mp hletter).1⟩
  rw [hnil, List.prefix_nil] at hstart
  exact absurd hstart (by decide)

theorem isTestPrefix_of_checkPrefix {d : Datum} {s : String} (h : checkPrefix d = .ok s) : isTestPrefix s = true := by
  unfold checkPrefix at h
  split at h
  · split at h
    · next hchecked =>
      cases h
      exact hchecked
    · cases h
  · cases h

/-! ## Generated names -/

namespace Naming

theorem isIdentifier_interfaceName {interface : SyntaxTree} (h : interface.identified = true) :
    isIdentifier (interfaceName interface) = true := by
  rw [interfaceName]
  cases hlast : interface.lastSegment? with
  | none => decide
  | some s => exact isIdentifier_of_lastSegment? h hlast

theorem toList_synthesized (beginning : String) (interface : SyntaxTree) (n : Nat) :
    (synthesized beginning interface n).toList =
      beginning.toList ++ ("trait_impl_".toList ++ (interfaceName interface ++ "_" ++ n.repr).toList) := by
  simp only [synthesized, String.toList_append, List.append_assoc]

/-- Behind an identifier, or alone, what a generated name is made of gives an identifier. -/
theorem isIdentifier_synthesized {beginning : String} {interface : SyntaxTree}
    (hbeginning : beginning = "" ∨ isIdentifier beginning = true) (hinterface : interface.identified = true) (n : Nat) :
    isIdentifier (synthesized beginning interface n) = true := by
  have hfixed : isIdentifier (beginning ++ "trait_impl_") = true := by
    rcases hbeginning with rfl | hbeginning
    · decide
    · exact isIdentifier_append hbeginning (isContinue_of_isIdentifier (by decide))
  have hnamed := isIdentifier_append hfixed (isContinue_of_isIdentifier (isIdentifier_interfaceName hinterface))
  refine isIdentifier_append (isIdentifier_append hnamed (isContinue_of_isIdentifier (by decide))) fun c hc => ?_
  simp [isContinue, isDigit_of_mem_repr hc]

/-- No word without an underscore is a generated name. -/
theorem synthesized_not_mem {ws : List String} (hws : ∀ w ∈ ws, '_' ∉ w.toList) (beginning : String)
    (interface : SyntaxTree) (n : Nat) : synthesized beginning interface n ∉ ws := by
  intro hmem
  refine hws _ hmem ?_
  rw [toList_synthesized]
  exact List.mem_append_right _ (List.mem_append_left _ (by decide))

end Naming

namespace Implementation

variable {i : Implementation} {discovery : String}

theorem functionNames_valid (hdiscovery : isTestPrefix discovery = true)
    (hinterfaces : ∀ inst ∈ i.instantiations, inst.interface.identified = true) (next : Nat) :
    ∀ name ∈ i.functionNames discovery next, isIdentifier name = true ∧ name ∉ keywords ∧
      ("test".isPrefixOf name = true ↔ i.inline = false) := by
  obtain ⟨htest, hidentifier⟩ := isIdentifier_of_isTestPrefix hdiscovery
  intro name hname
  obtain ⟨⟨inst, k⟩, hmem, rfl⟩ := List.mem_map.mp hname
  have hinterface := hinterfaces inst (List.fst_mem_of_mem_zipIdx hmem)
  refine ⟨Naming.isIdentifier_synthesized ?_ hinterface _, Naming.synthesized_not_mem (by decide) _ _ _, ?_⟩
  · cases i.inline with
    | true => exact .inl rfl
    | false => exact .inr hidentifier
  · rw [isPrefixOf_iff, Naming.toList_synthesized]
    cases i.inline with
    | true =>
      refine ⟨fun hstart => ?_, fun h => by cases h⟩
      obtain ⟨rest, h⟩ := hstart
      -- the second letters differ
      exact absurd (congrArg (·[1]?) h) (by simp)
    | false => exact ⟨fun _ => rfl, fun _ => htest.trans (List.prefix_append _ _)⟩

theorem filterMap_function?_zipWith {names : List String} {insts : List Instantiation}
    (hlength : names.length = insts.length) :
    ((List.zipWith functionFor names insts).filterMap Statement.function?).map Function.name = names := by
  induction names generalizing insts with
  | nil => rfl
  | cons name names ih =>
    cases insts with
    | nil => cases hlength
    | cons inst insts => exact congrArg (name :: ·) (ih (Nat.succ.inj hlength))

theorem filterMap_function?_calls (names : List String) : (calls names).filterMap Statement.function? = [] := by
  have hlines (names : List String) : (names.map fun n =>
      Statement.ofExpression ((SyntaxTree.ofName n).apply [])).filterMap Statement.function? = [] := by
    rw [List.filterMap_map]
    exact List.filterMap_eq_nil_iff.mpr fun _ _ => rfl
  cases names with
  | nil => rfl
  | cons name names => exact hlines names

/-- The functions among the statements of an expanded implementation have the generated names. -/
theorem functions_expanded (i : Implementation) (discovery : String) (next : Nat) :
    ((i.expanded discovery next).filterMap Statement.function?).map Function.name = i.functionNames discovery next := by
  have hcalls : (if i.inline then calls (i.functionNames discovery next) else []).filterMap Statement.function? =
      [] := by
    cases i.inline with
    | true => exact filterMap_function?_calls _
    | false => rfl
  have hlength : (i.functionNames discovery next).length = i.instantiations.length := by
    simp [functionNames]
  have hclass : [i.definition.statement].filterMap Statement.function? = [] := rfl
  rw [expanded, List.filterMap_append, List.filterMap_append, hclass, hcalls, List.nil_append, List.append_nil,
    filterMap_function?_zipWith hlength]

end Implementation

/-- The functions of an implementation, one for each instantiation, have names that are identifiers and no keywords.
They start with `test` just if the class has no marker that runs its tests in place. -/
theorem expanded_names_valid (aliases typeVariables : List String) (args : List SyntaxTree) (item : Statement)
    (i : Implementation) (hread : Implementation.read aliases typeVariables args item = .ok i) (d : Datum)
    (discovery : String) (hdiscovery : checkPrefix d = .ok discovery)
    (hinterfaces : ∀ inst ∈ i.instantiations, inst.interface.identified = true) (next : Nat) :
    ∃ c : Class, item = c.statement ∧
      ((i.expanded discovery next).filterMap Statement.function?).length = i.instantiations.length ∧
      ∀ f ∈ (i.expanded discovery next).filterMap Statement.function?, isIdentifier f.name = true ∧ f.name ∉ keywords ∧
        ("test".isPrefixOf f.name = true ↔ c.runsInline aliases = false) := by
  obtain ⟨c, hitem, -, hinline⟩ := read_class hread
  have hnames := i.functions_expanded discovery next
  refine ⟨c, hitem, ?_, fun f hf => ?_⟩
  · rw [← List.length_map Function.name, hnames]
    simp [Implementation.functionNames]
  · rw [← hinline]
    refine Implementation.functionNames_valid (isTestPrefix_of_checkPrefix hdiscovery) hinterfaces next f.name ?_
    rw [← hnames]
    exact List.mem_map_of_mem hf

/-- A class with two instantiations, whose tests are discovered under a beginning beyond ASCII or run in place. -/
theorem expanded_names_valid_storeClass :
    checkPrefix (.text "testé") = .ok "testé" ∧
    (∃ i, Implementation.read ["tt"] ["S", "T", "V"] [pairOf intStore, pairOf textStore] storeClass.statement = .ok i ∧
      i.instantiations.all (·.interface.identified) = true ∧
      ((i.expanded "testé" 9).filterMap Statement.function?).length = 2 ∧
      ∀ f ∈ (i.expanded "testé" 9).filterMap Statement.function?, isIdentifier f.name = true ∧
        "test".isPrefixOf f.name = true) ∧
    ∃ i, Implementation.read ["tt"] ["S", "T", "V"] [pairOf intStore, pairOf textStore] inlineStore.statement = .ok i ∧
      i.instantiations.all (·.interface.identified) = true ∧
      ((i.expanded "testé" 9).filterMap Statement.function?).length = 2 ∧
      ∀ f ∈ (i.expanded "testé" 9).filterMap Statement.function?, isIdentifier f.name = true ∧
        "test".isPrefixOf f.name = false := by
  have hchecked : checkPrefix (.text "testé") = .ok "testé" := by
    have htest : isTestPrefix "testé" = true :=
      Bool.and_eq_true_iff.mpr ⟨isPrefixOf_iff.mpr (by decide), by decide +kernel⟩
    rw [checkPrefix, if_pos htest]
  have hread (c : Class) (hc : c = storeClass ∨ c = inlineStore) : ∃ i, Implementation.read ["tt"] ["S", "T", "V"]
      [pairOf intStore, pairOf textStore] c.statement = .ok i ∧ i.instantiations = [intStore, textStore] := by
    rcases hc with rfl | rfl
    · exact ⟨_, rfl, rfl⟩
    · exact ⟨_, rfl, rfl⟩
  have hnames (c : Class) (hc : c = storeClass ∨ c = inlineStore) : ∃ i, Implementation.read ["tt"] ["S", "T", "V"]
      [pairOf intStore, pairOf textStore] c.statement = .ok i ∧ i.instantiations.all (·.interface.identified) = true ∧
      ((i.expanded "testé" 9).filterMap Statement.function?).length = 2 ∧
      ∀ f ∈ (i.expanded "testé" 9).filterMap Statement.function?, isIdentifier f.name = true ∧
        "test".isPrefixOf f.name = !c.runsInline ["tt"] := by
    obtain ⟨i, hi, hinsts⟩ := hread c hc
    have hidentified : i.instantiations.all (·.interface.identified) = true := by
      rw [hinsts]
      decide
    obtain ⟨c', hitem, hlength, hvalid⟩ := expanded_names_valid ["tt"] ["S", "T", "V"] _ c.statement i hi _ _ hchecked
      (List.all_eq_true.mp hidentified) 9
    obtain rfl : c = c' := Option.some.inj (congrArg Statement.class? hitem)
    rw [hinsts] at hlength
    refine ⟨i, hi, hidentified, hlength, fun f hf => ⟨(hvalid f hf).1, ?_⟩⟩
    rw [Bool.eq_iff_iff, (hvalid f hf).2.2, Bool.not_eq_true']
  exact ⟨hchecked, hnames storeClass (.inl rfl), hnames inlineStore (.inr rfl)⟩

end Conformance
