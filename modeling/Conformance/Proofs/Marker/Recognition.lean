import Conformance.Proofs.Marker
import Conformance.Proofs.Source.Identified
import Conformance.Proofs.Source.Places

/-!
# Recognition of markers

Markers are found by comparing texts: the dotted name of a decorator with the spellings of the marker.  This is the same
as comparing segments (`marks_iff_spells`).  A decorator is a marker exactly if, without its call, it is a chain of a
name and attributes whose segments are the word of the marker, perhaps after the segments of a module name:

    m.marks aliases d ↔ ∃ e segments, (e = d.expression ∨ d.expression.Invokes e) ∧ e.Chain segments ∧
      (segments = [m.word] ∨ ∃ a ∈ aliases, segments = segmentsOf a ++ [m.word])

For this no segment may hold a dot, as is the case for identifiers.
-/

namespace Conformance

open Source SyntaxTree

/-! ## Chains -/

namespace Source.SyntaxTree

/-- The expression is a name followed by attributes, with these segments.  Parentheses around parts of it do not
matter. -/
inductive Chain : SyntaxTree → List String → Prop
  | name {t : Token} : t.kind = .name → Chain (leaf t) [t.text]
  | member {value dot : SyntaxTree} {t : Token} {segments : List String} : Chain value segments →
      Chain (node .member [value, dot, leaf t]) (segments ++ [t.text])
  | paren {opening inner closing : SyntaxTree} {segments : List String} : Chain inner segments →
      Chain (node .paren [opening, inner, closing]) segments

theorem segments?_eq_some_iff {t : SyntaxTree} {segments : List String} :
    t.segments? = some segments ↔ t.Chain segments := by
  constructor
  · intro h
    fun_induction segments? t generalizing segments with
    | case1 t hkind =>
      cases h
      exact .name (beq_iff_eq.mp hkind)
    | case2 => cases h
    | case3 l inner r ih => exact .paren (ih h)
    | case4 value dot t ih =>
      obtain ⟨front, hfront, rfl⟩ := Option.map_eq_some_iff.mp h
      exact .member (ih hfront)
    | case5 => cases h
  · intro h
    induction h with
    | name hkind => rw [segments?, if_pos (beq_iff_eq.mpr hkind)]
    | member _ ih => rw [segments?, ih, Option.map_some]
    | paren _ ih => rw [segments?, ih]

theorem Chain.ne_nil {t : SyntaxTree} {segments : List String} (h : t.Chain segments) : segments ≠ [] := by
  induction h with
  | name => exact List.cons_ne_nil _ _
  | member => exact List.append_ne_nil_of_right_ne_nil _ (List.cons_ne_nil _ _)
  | paren _ ih => exact ih

/-! ## Calls -/

/-- The expression is a call of the other one, perhaps in parentheses. -/
inductive Invokes : SyntaxTree → SyntaxTree → Prop
  | call {f : SyntaxTree} {rest : List SyntaxTree} : Invokes (node .call (f :: rest)) f
  | paren {opening inner closing f : SyntaxTree} : Invokes inner f → Invokes (node .paren [opening, inner, closing]) f

theorem invokes_iff {t f : SyntaxTree} : t.Invokes f ↔ ∃ rest, t.core = node .call (f :: rest) := by
  constructor
  · intro h
    induction h with
    | @call f rest => exact ⟨rest, rfl⟩
    | paren _ ih => exact ih
  · rintro ⟨rest, h⟩
    fun_induction core t with
    | case1 => cases h
    | case2 opening inner closing ih => exact .paren (ih h)
    | case3 =>
      cases h
      exact .call

/-- A chain is no call. -/
theorem Chain.not_invokes {t f : SyntaxTree} {segments : List String} (h : t.Chain segments) : ¬ t.Invokes f := by
  induction h with
  | name => rintro ⟨⟩
  | member => rintro ⟨⟩
  | paren _ ih =>
    intro hinvokes
    cases hinvokes with
    | paren hinner => exact ih hinner

/-- What is left without a call is a chain if the expression is one or calls one. -/
theorem chain_callee_iff {t : SyntaxTree} {segments : List String} :
    t.callee.Chain segments ↔ ∃ e, (e = t ∨ t.Invokes e) ∧ e.Chain segments := by
  unfold callee
  split
  · next f rest hcore =>
    have hinvokes : t.Invokes f := invokes_iff.mpr ⟨rest, hcore⟩
    constructor
    · exact fun h => ⟨f, .inr hinvokes, h⟩
    · rintro ⟨e, rfl | he, h⟩
      · exact absurd hinvokes h.not_invokes
      · obtain ⟨rest', hcore'⟩ := invokes_iff.mp he
        rw [hcore] at hcore'
        cases hcore'
        exact h
  · next hcore =>
    constructor
    · exact fun h => ⟨t, .inl rfl, h⟩
    · rintro ⟨e, rfl | he, h⟩
      · exact h
      · obtain ⟨rest, hcall⟩ := invokes_iff.mp he
        exact absurd hcall (hcore e rest)

theorem identified_callee {t : SyntaxTree} (h : t.identified = true) : t.callee.identified = true := by
  unfold callee
  split
  · next f rest hcore =>
    have hcall := holds_core (P := fun t => t.identified = true) (fun _ _ _ hnode hc => identified_child hnode hc) t h
    rw [hcore] at hcall
    exact identified_child hcall List.mem_cons_self
  · exact h

end Source.SyntaxTree

/-! ## Segments -/

/-- The segments of a dotted name, between its dots. -/
def segmentsOf (name : String) : List String := (name.toList.splitOn '.').map String.ofList

/-- Segments without dots are what is between the dots of their dotted name. -/
theorem intercalate_eq_iff {segments : List String} {name : String} (hne : segments ≠ [])
    (hdots : ∀ s ∈ segments, '.' ∉ s.toList) : ".".intercalate segments = name ↔ segments = segmentsOf name := by
  constructor
  · rintro rfl
    have hsplit : (['.'].intercalate (segments.map String.toList)).splitOn '.' = segments.map String.toList :=
      List.splitOn_intercalate '.' (by simpa using hdots) (by simpa using hne)
    have hback : String.ofList ∘ String.toList = id := funext fun _ => String.ofList_toList
    rw [segmentsOf, String.toList_intercalate]
    change segments = (List.splitOn '.' (['.'].intercalate _)).map String.ofList
    rw [hsplit, List.map_map, hback, List.map_id]
  · rintro rfl
    have hback : String.toList ∘ String.ofList = id := funext fun _ => String.toList_ofList
    apply String.toList_inj.mp
    rw [String.toList_intercalate, segmentsOf, List.map_map, hback, List.map_id]
    exact List.intercalate_splitOn '.'

theorem segmentsOf_of_not_mem {name : String} (h : '.' ∉ name.toList) : segmentsOf name = [name] := by
  rw [segmentsOf, List.splitOn_eq_singleton h, List.map_singleton, String.ofList_toList]

theorem segmentsOf_append_dot (front : String) {last : String} (h : '.' ∉ last.toList) :
    segmentsOf (front ++ "." ++ last) = segmentsOf front ++ [last] := by
  have hchars : (front ++ "." ++ last).toList = front.toList ++ '.' :: last.toList := by simp
  rw [segmentsOf, hchars, List.splitOn_append_cons_self, List.map_append, List.splitOn_eq_singleton h,
    List.map_singleton, String.ofList_toList, segmentsOf]

theorem not_mem_dot_of_isIdentifier {s : String} (h : Text.Identifier.isIdentifier s = true) : '.' ∉ s.toList := by
  intro hdot
  exact absurd (isContinue_of_isIdentifier h '.' hdot) (by decide)

namespace Marker

theorem not_mem_dot_word (m : Marker) : '.' ∉ m.word.toList := by
  cases m <;> decide

/-- The expression spells the marker: without at most one call it is a chain of the word, alone or after the segments of
a module name. -/
def Spells (aliases : List String) (m : Marker) (t : SyntaxTree) : Prop :=
  ∃ e segments, (e = t ∨ t.Invokes e) ∧ e.Chain segments ∧
    (segments = [m.word] ∨ ∃ a ∈ aliases, segments = segmentsOf a ++ [m.word])

theorem mem_spellings_iff {aliases : List String} {m : Marker} {name : String} :
    name ∈ m.spellings aliases ↔ name = m.word ∨ ∃ a ∈ aliases, a ++ "." ++ m.word = name := by
  rw [spellings, List.mem_cons, List.mem_map]

/-- Segments are joined to a spelling exactly if they are those of the spelling. -/
theorem intercalate_mem_spellings {aliases : List String} {m : Marker} {segments : List String} (hne : segments ≠ [])
    (hdots : ∀ s ∈ segments, '.' ∉ s.toList) : ".".intercalate segments ∈ m.spellings aliases ↔
      segments = [m.word] ∨ ∃ a ∈ aliases, segments = segmentsOf a ++ [m.word] := by
  have hjoin {name : String} : ".".intercalate segments = name ↔ segments = segmentsOf name :=
    intercalate_eq_iff hne hdots
  rw [mem_spellings_iff, hjoin, segmentsOf_of_not_mem m.not_mem_dot_word]
  refine or_congr_right (exists_congr fun a => and_congr_right fun _ => ?_)
  rw [eq_comm, hjoin, segmentsOf_append_dot a m.not_mem_dot_word]

theorem marks_iff_spells {aliases : List String} {m : Marker} {d : Decorator} (hd : d.expression.identified = true) :
    m.marks aliases d = true ↔ m.Spells aliases d.expression := by
  have hdots {segments : List String} (h : d.expression.callee.Chain segments) : ∀ s ∈ segments, '.' ∉ s.toList :=
    fun s hs => not_mem_dot_of_isIdentifier
      (isIdentifier_of_segments? (identified_callee hd) (segments?_eq_some_iff.mpr h) s hs)
  rw [marks_iff]
  constructor
  · rintro ⟨name, hname, hmem⟩
    obtain ⟨segments, hsegments, rfl⟩ := Option.map_eq_some_iff.mp hname
    have hchain := segments?_eq_some_iff.mp hsegments
    obtain ⟨e, he, hcalled⟩ := chain_callee_iff.mp hchain
    exact ⟨e, segments, he, hcalled, (intercalate_mem_spellings hchain.ne_nil (hdots hchain)).mp hmem⟩
  · rintro ⟨e, segments, he, hcalled, hspelled⟩
    have hchain : d.expression.callee.Chain segments := chain_callee_iff.mpr ⟨e, he, hcalled⟩
    refine ⟨".".intercalate segments, ?_, (intercalate_mem_spellings hchain.ne_nil (hdots hchain)).mpr hspelled⟩
    rw [dotted?, segments?_eq_some_iff.mpr hchain, Option.map_some]

/-- Which module names are given twice, and in which order, does not matter. -/
theorem marks_congr {aliases aliases' : List String} (h : ∀ a, a ∈ aliases ↔ a ∈ aliases') (m : Marker)
    (d : Decorator) : m.marks aliases d = m.marks aliases' d := by
  rw [Bool.eq_iff_iff, marks_iff, marks_iff]
  simp only [mem_spellings_iff, h]

/-- A decorator whose names are identifiers, as they are in every text, is a marker if and only if it spells the marker.
No decorator is two markers, and of the module names only the set matters. -/
theorem marks_exact (aliases : List String) (d : Decorator) :
    (d.expression.identified = true → ∀ m : Marker, m.marks aliases d = true ↔ m.Spells aliases d.expression) ∧
    (∀ m m' : Marker, m.marks aliases d = true → m'.marks aliases d = true → m = m') ∧
    (∀ aliases', (∀ a, a ∈ aliases ↔ a ∈ aliases') → ∀ m : Marker, m.marks aliases d = m.marks aliases' d) ∧
    ∀ source parsed, Module.parse? source = some parsed → d ∈ decoratorsOf parsed.body →
      d.expression.identified = true :=
  ⟨fun hd _ => marks_iff_spells hd, fun _ _ => marks_unique, fun _ h m => marks_congr h m d,
    fun _ _ hparse => parse?_identified hparse d⟩

/-- A marker behind a dotted module name that ends in the word of another marker. -/
def nestedMarker : String := "@(tt.tested_trait).test(1)\ndef f(self): pass\n"

theorem marks_exact_nestedMarker :
    ∃ m d, Module.parse? nestedMarker = some m ∧ d ∈ decoratorsOf m.body ∧ d.expression.identified = true ∧
      Marker.test.Spells ["test", "tt.tested_trait"] d.expression ∧
      ∀ m', m'.marks ["tt.tested_trait", "test", "test"] d = true → m' = Marker.test := by
  have hmarks : (Module.parse? nestedMarker).map
      (fun m => (decoratorsOf m.body).map fun d => Marker.test.marks ["test", "tt.tested_trait"] d) = some [true] := by
    decide +kernel
  obtain ⟨m, hm, hmarks⟩ := Option.map_eq_some_iff.mp hmarks
  obtain ⟨d, hd, hmark⟩ := List.mem_map.mp (hmarks ▸ List.mem_cons_self : true ∈ _)
  obtain ⟨hspells, hunique, hset, hidentified⟩ := marks_exact ["test", "tt.tested_trait"] d
  have hnames := hidentified _ m hm hd
  refine ⟨m, d, hm, hd, hnames, (hspells hnames .test).mp hmark, fun m' hm' => hunique m' .test ?_ hmark⟩
  rw [hset ["tt.tested_trait", "test", "test"] (by simp [or_comm])]
  exact hm'

end Marker

end Conformance
