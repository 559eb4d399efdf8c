import Mathlib.Data.List.Infix
import Mathlib.Data.List.Nodup
import Conformance.Files.Basic

/-!
# The tree of files

A path is followed component by component, through directories only, so where it leads does not depend on the files:
it is `Path.normalize`.  What the files decide is whether the way can be gone at all (`Passable`).  A tree is
`Closed` if what lies above an entry is a directory; `WellFormed` says so of the list of entries.
-/

namespace Conformance

/-! ## Where a path leads -/

namespace Path

@[simp] theorem normalize_nil : Path.normalize [] = [] := rfl

/-- One more component goes up or down. -/
theorem normalize_concat (parts : List String) (p : String) :
    Path.normalize (parts ++ [p]) = if p = ".." then (Path.normalize parts).dropLast else Path.normalize parts ++ [p] := by
  unfold Path.normalize
  rw [List.foldl_append, List.foldl_cons, List.foldl_nil]
  by_cases hp : p = ".."
  · simp [hp, List.dropLast_reverse]
  · simp [hp]

theorem normalize_concat_name {p : String} (parts : List String) (hp : p ≠ "..") :
    Path.normalize (parts ++ [p]) = Path.normalize parts ++ [p] := by
  rw [normalize_concat, if_neg hp]

/-- Names only go down. -/
theorem normalize_append_names (parts : List String) {names : List String} (h : ".." ∉ names) :
    Path.normalize (parts ++ names) = Path.normalize parts ++ names := by
  induction names using List.reverseRecOn with
  | nil => simp
  | append_singleton names n ih =>
    have hn : n ≠ ".." := by
      intro hn
      exact h (by simp [hn])
    have hnames : ".." ∉ names := fun hmem => h (List.mem_append_left [n] hmem)
    rw [← List.append_assoc, normalize_concat_name _ hn, ih hnames, List.append_assoc]

/-- The places that are passed on the way, the last one included. -/
def OnWay (parts q : List String) : Prop := ∃ a, a <+: parts ∧ Path.normalize a = q

theorem onWay_nil {q : List String} : OnWay [] q ↔ q = [] := by
  constructor
  · rintro ⟨a, ha, rfl⟩
    rw [List.prefix_nil.mp ha, normalize_nil]
  · rintro rfl
    exact ⟨[], List.prefix_refl [], rfl⟩

theorem onWay_concat {parts q : List String} {p : String} :
    OnWay (parts ++ [p]) q ↔ q = Path.normalize (parts ++ [p]) ∨ OnWay parts q := by
  constructor
  · rintro ⟨a, ha, rfl⟩
    rcases List.prefix_concat_iff.mp ha with rfl | ha
    · exact .inl rfl
    · exact .inr ⟨a, ha, rfl⟩
  · rintro (rfl | ⟨a, ha, rfl⟩)
    · exact ⟨parts ++ [p], List.prefix_refl _, rfl⟩
    · exact ⟨a, List.prefix_concat_iff.mpr (.inr ha), rfl⟩

theorem OnWay.end (parts : List String) : OnWay parts (Path.normalize parts) := ⟨parts, List.prefix_refl _, rfl⟩

theorem OnWay.extend {a parts q : List String} (ha : a <+: parts) (h : OnWay a q) : OnWay parts q := by
  obtain ⟨b, hb, rfl⟩ := h
  exact ⟨b, hb.trans ha, rfl⟩

/-- On the way to an end there is the end, or a place before it. -/
theorem onWay_iff_dropLast {parts q : List String} :
    OnWay parts q ↔ q = Path.normalize parts ∨ OnWay parts.dropLast q := by
  rcases List.eq_nil_or_concat parts with rfl | ⟨before, p, rfl⟩
  · simp [onWay_nil]
  · rw [List.concat_eq_append, List.dropLast_concat, onWay_concat]

end Path

namespace Files

open Conformance.Path

/-! ## Entries -/

@[simp] theorem lookup?_nil (fs : Files) : fs.lookup? [] = some .directory := rfl

theorem lookup?_of_ne_nil (fs : Files) {q : List String} (h : q ≠ []) :
    fs.lookup? q = (fs.entries.find? fun e => e.1 == q).map Prod.snd := by
  simp [lookup?, h]

/-- Putting an entry changes what is found at its names, and nothing else. -/
theorem lookup?_put (fs : Files) {parts : List String} (hparts : parts ≠ []) (e : Entry) (q : List String) :
    (fs.put parts e).lookup? q = if q = parts then some e else fs.lookup? q := by
  by_cases hq : q = []
  · subst hq
    rw [if_neg hparts.symm, lookup?_nil, lookup?_nil]
  rw [lookup?_of_ne_nil _ hq, lookup?_of_ne_nil _ hq]
  unfold put
  by_cases hthere : (fs.lookup? parts).isSome
  · rw [if_pos hthere]
    dsimp only
    have hkeys : ((fun x : List String × Entry => x.1 == q) ∘ fun x => if x.1 == parts then (parts, e) else x) =
        fun x => x.1 == q := by
      funext x
      by_cases hx : x.1 = parts <;> simp [hx]
    rw [List.find?_map, hkeys, Option.map_map]
    by_cases hqp : q = parts
    · subst hqp
      rw [if_pos rfl]
      rw [lookup?_of_ne_nil _ hq, Option.isSome_map] at hthere
      obtain ⟨x, hx⟩ := Option.isSome_iff_exists.mp hthere
      have hkey : x.1 = q := by simpa using List.find?_some hx
      simp [hx, hkey]
    · rw [if_neg hqp]
      apply Option.map_congr
      intro x hx
      have hkey : x.1 = q := by simpa using List.find?_some hx
      simp [hkey, hqp]
  · rw [if_neg hthere]
    dsimp only
    rw [List.find?_append]
    by_cases hqp : q = parts
    · subst hqp
      rw [if_pos rfl]
      rw [lookup?_of_ne_nil _ hq, Option.isSome_map, Option.not_isSome_iff_eq_none] at hthere
      simp [hthere]
    · have hparts' : ¬ parts = q := fun h => hqp h.symm
      simp [hqp, hparts']

theorem lookup?_put_self (fs : Files) {parts : List String} (hparts : parts ≠ []) (e : Entry) :
    (fs.put parts e).lookup? parts = some e := by
  rw [lookup?_put fs hparts, if_pos rfl]

theorem lookup?_put_of_ne (fs : Files) {parts q : List String} (hparts : parts ≠ []) (e : Entry) (h : q ≠ parts) :
    (fs.put parts e).lookup? q = fs.lookup? q := by
  rw [lookup?_put fs hparts, if_neg h]

/-! ## Following a path -/

/-- Every place on the way is a directory. -/
def Passable (fs : Files) (parts : List String) : Prop :=
  ∀ q, OnWay parts q → fs.lookup? q = some .directory

theorem passable_nil (fs : Files) : fs.Passable [] := by
  intro q hq
  rw [onWay_nil.mp hq, lookup?_nil]

theorem passable_concat {fs : Files} {parts : List String} {p : String} :
    fs.Passable (parts ++ [p]) ↔ fs.Passable parts ∧ fs.lookup? (Path.normalize (parts ++ [p])) = some .directory := by
  unfold Passable
  constructor
  · intro h
    exact ⟨fun q hq => h q (onWay_concat.mpr (.inr hq)), h _ (.end _)⟩
  · rintro ⟨hbefore, hlast⟩ q hq
    rcases onWay_concat.mp hq with rfl | hq
    · exact hlast
    · exact hbefore q hq

theorem passable_iff_dropLast {fs : Files} {parts : List String} :
    fs.Passable parts ↔ fs.Passable parts.dropLast ∧ fs.lookup? (Path.normalize parts) = some .directory := by
  rcases List.eq_nil_or_concat parts with rfl | ⟨before, p, rfl⟩
  · simp [passable_nil]
  · rw [List.concat_eq_append, List.dropLast_concat, passable_concat]

/-- Following the components of a path, the last of them counted as one. -/
theorem follow_append (fs : Files) (here : List String) (ps : List String) (p : String) :
    fs.follow here (ps ++ [p]) = (do
      let above ← fs.follow here ps
      fs.follow above [p]) := by
  induction ps generalizing here with
  | nil => rfl
  | cons first ps ih =>
    rw [List.cons_append, follow, follow]
    split
    · rfl
    · rfl
    · exact ih _

theorem follow_singleton (fs : Files) (parts : List String) (p : String) :
    fs.follow (Path.normalize parts) [p] = .ok (Path.normalize (parts ++ [p])) ∧
        fs.lookup? (Path.normalize parts) = some .directory ∨
      fs.follow (Path.normalize parts) [p] = .error .notFound ∧ fs.lookup? (Path.normalize parts) = none ∨
      fs.follow (Path.normalize parts) [p] = .error .notDirectory ∧ ∃ c, fs.lookup? (Path.normalize parts) = some (.file c) := by
  rw [follow]
  rcases hhere : fs.lookup? (Path.normalize parts) with _ | c | _
  · exact .inr (.inl ⟨rfl, rfl⟩)
  · exact .inr (.inr ⟨rfl, c, rfl⟩)
  · refine .inl ⟨?_, rfl⟩
    dsimp only
    rw [follow, normalize_concat]
    simp only [beq_iff_eq]

/-- A path can be followed if every place before its end is a directory.  Otherwise something on the way is missing,
or it is a file. -/
theorem follow_cases (fs : Files) (parts : List String) :
    fs.follow [] parts = .ok (Path.normalize parts) ∧ fs.Passable parts.dropLast ∨
      (fs.follow [] parts = .error .notFound ∨
        fs.follow [] parts = .error .notDirectory ∧ ∃ q c, OnWay parts q ∧ fs.lookup? q = some (.file c)) ∧
      ¬ fs.Passable parts.dropLast := by
  induction parts using List.reverseRecOn with
  | nil => exact .inl ⟨rfl, passable_nil fs⟩
  | append_singleton parts p ih =>
    rw [follow_append, List.dropLast_concat]
    rcases ih with ⟨hok, hpass⟩ | ⟨hfault, hblocked⟩
    · rw [hok]
      rcases follow_singleton fs parts p with ⟨hstep, hdir⟩ | ⟨hstep, hnone⟩ | ⟨hstep, c, hfile⟩
      · exact .inl ⟨hstep, passable_iff_dropLast.mpr ⟨hpass, hdir⟩⟩
      · refine .inr ⟨.inl hstep, fun h => ?_⟩
        rw [h _ (.end parts)] at hnone
        cases hnone
      · refine .inr ⟨.inr ⟨hstep, _, c, .extend (List.prefix_append _ _) (.end parts), hfile⟩, fun h => ?_⟩
        rw [h _ (.end parts)] at hfile
        cases hfile
    · refine .inr ⟨?_, fun h => hblocked (passable_iff_dropLast.mp h).1⟩
      rcases hfault with hfault | ⟨hfault, q, c, hq, hc⟩
      · rw [hfault]
        exact .inl rfl
      · rw [hfault]
        exact .inr ⟨rfl, q, c, .extend (List.prefix_append _ _) hq, hc⟩

/-- A path leads to an entry if it is relative and the way before its end can be gone. -/
theorem locate_eq_ok {fs : Files} {p : Path} {q : List String} :
    fs.locate p = .ok q ↔ p.absolute = false ∧ fs.Passable p.parts.dropLast ∧ q = Path.normalize p.parts := by
  unfold locate
  by_cases habs : p.absolute = true
  · simp [habs]
  · rw [if_neg habs]
    rcases follow_cases fs p.parts with ⟨hok, hpass⟩ | ⟨hfault, hblocked⟩
    · rw [hok, Except.ok.injEq]
      exact ⟨fun h => ⟨by simpa using habs, hpass, h.symm⟩, fun h => h.2.2.symm⟩
    · refine iff_of_false (fun h => ?_) (fun h => hblocked h.2.1)
      rcases hfault with hfault | ⟨hfault, -⟩
      · rw [hfault] at h
        cases h
      · rw [hfault] at h
        cases h

/-- Without a file on the way, a path that cannot be followed is missing. -/
theorem locate_eq_notFound {fs : Files} {p : Path} (hblocked : ¬ fs.Passable p.parts.dropLast)
    (hclear : ∀ q c, OnWay p.parts q → fs.lookup? q ≠ some (.file c)) : fs.locate p = .error .notFound := by
  unfold locate
  split_ifs
  · rfl
  · rcases follow_cases fs p.parts with ⟨-, hpass⟩ | ⟨hfault | ⟨-, q, c, hq, hc⟩, -⟩
    · exact absurd hpass hblocked
    · exact hfault
    · exact absurd hc (hclear q c hq)

theorem isDirectory_iff {fs : Files} {p : Path} : fs.isDirectory p = true ↔ p.absolute = false ∧ fs.Passable p.parts := by
  unfold isDirectory entry?
  rw [passable_iff_dropLast, beq_iff_eq]
  constructor
  · intro h
    split at h
    · rename_i parts hlocate
      obtain ⟨habs, hpass, rfl⟩ := locate_eq_ok.mp hlocate
      exact ⟨habs, hpass, h⟩
    · cases h
  · rintro ⟨habs, hpass, hdir⟩
    rw [locate_eq_ok.mpr ⟨habs, hpass, rfl⟩]
    exact hdir

/-! ## Well-formed trees -/

/-- What lies above an entry is a directory. -/
def Closed (fs : Files) : Prop :=
  ∀ q e, fs.lookup? q = some e → fs.lookup? q.dropLast = some .directory

/-- Everything above an entry is a directory. -/
theorem Closed.above {fs : Files} (h : fs.Closed) {a b : List String} {e : Entry} (hb : b ≠ [])
    (he : fs.lookup? (a ++ b) = some e) : fs.lookup? a = some .directory := by
  induction b using List.reverseRecOn generalizing e with
  | nil => exact absurd rfl hb
  | append_singleton b n ih =>
    have hup := h _ e he
    rw [← List.append_assoc, List.dropLast_concat] at hup
    by_cases hb : b = []
    · rwa [hb, List.append_nil] at hup
    · exact ih hb hup

/-- No two entries have the same names, the names are names, and what lies above an entry is a directory. -/
structure WellFormed (fs : Files) : Prop where
  nodup : (fs.entries.map Prod.fst).Nodup
  named : ∀ e ∈ fs.entries, e.1 ≠ [] ∧ ".." ∉ e.1
  above : ∀ e ∈ fs.entries, fs.lookup? e.1.dropLast = some .directory

namespace WellFormed

variable {fs : Files}

theorem lookup?_eq_some (h : fs.WellFormed) {q : List String} (hq : q ≠ []) {e : Entry} :
    fs.lookup? q = some e ↔ (q, e) ∈ fs.entries := by
  rw [lookup?_of_ne_nil fs hq, Option.map_eq_some_iff]
  constructor
  · rintro ⟨⟨q', e'⟩, hfind, rfl⟩
    obtain rfl : q' = q := by simpa using List.find?_some hfind
    exact List.mem_of_find?_eq_some hfind
  · intro hmem
    obtain ⟨x, hx⟩ : ∃ x, fs.entries.find? (fun e => e.1 == q) = some x := by
      rw [← Option.isSome_iff_exists, List.find?_isSome]
      exact ⟨_, hmem, by simp⟩
    have hkey : x.1 = q := by simpa using List.find?_some hx
    -- Both entries have the names `q`, which only one has.
    have hsame : x = (q, e) := List.inj_on_of_nodup_map h.nodup (List.mem_of_find?_eq_some hx) hmem hkey
    exact ⟨x, hx, by rw [hsame]⟩

theorem closed (h : fs.WellFormed) : fs.Closed := by
  intro q e he
  by_cases hq : q = []
  · rw [hq, List.dropLast_nil, lookup?_nil]
  · exact h.above _ ((h.lookup?_eq_some hq).mp he)

theorem names (h : fs.WellFormed) {q : List String} {e : Entry} (he : fs.lookup? q = some e) : ".." ∉ q := by
  by_cases hq : q = []
  · simp [hq]
  · exact (h.named _ ((h.lookup?_eq_some hq).mp he)).2

end WellFormed

/-! ## Sources -/

end Files

namespace Path

end Path

namespace Files

open Conformance.Path

section Sources

variable {fs : Files} {p : Path}

/-- What lies below a place and has a name that ends like `*.py`, in the order of the entries. -/
def found (fs : Files) (base : List String) : List (List String) :=
  (fs.entries.filterMap fun e =>
    if base.isPrefixOf e.1 && base.length < e.1.length then some (e.1.drop base.length) else none).filter
      fun parts => (parts.getLast?.getD "").endsWith ".py"

/-- The sources are what is found below the directory, sorted. -/
theorem sources_of_isDirectory (h : fs.isDirectory p = true) :
    fs.sources p = ((fs.found (Path.normalize p.parts)).mergeSort partsLe).map
      fun parts => { p with parts := p.parts ++ parts } := by
  obtain ⟨habs, hpass⟩ := isDirectory_iff.mp h
  unfold sources
  rw [locate_eq_ok.mpr ⟨habs, (passable_iff_dropLast.mp hpass).1, rfl⟩]
  rfl

/-- The sources are the paths below the directory whose names end like `*.py`. -/
theorem mem_sources (hfs : fs.WellFormed) (h : fs.isDirectory p = true) {path : Path} :
    path ∈ fs.sources p ↔ ∃ rel, rel ≠ [] ∧ path = { p with parts := p.parts ++ rel } ∧
      (fs.lookup? (Path.normalize p.parts ++ rel)).isSome ∧ (rel.getLast?.getD "").endsWith ".py" := by
  rw [sources_of_isDirectory h, List.mem_map]
  simp only [found, List.mem_mergeSort, List.mem_filter, List.mem_filterMap, Option.ite_none_right_eq_some, Bool.and_eq_true,
    List.isPrefixOf_iff_prefix, decide_eq_true_eq]
  constructor
  · rintro ⟨rel, ⟨⟨e, he, ⟨⟨rel', hrel'⟩, hlong⟩, hdrop⟩, hname⟩, rfl⟩
    obtain rfl : rel' = rel := by
      rw [← hrel', List.drop_left] at hdrop
      exact Option.some.inj hdrop
    have hne : rel' ≠ [] := by
      rintro rfl
      rw [← hrel', List.append_nil] at hlong
      exact Nat.lt_irrefl _ hlong
    refine ⟨rel', hne, rfl, ?_, hname⟩
    rw [hrel', (hfs.lookup?_eq_some (hfs.named e he).1).mpr he]
    rfl
  · rintro ⟨rel, hne, rfl, hthere, hname⟩
    obtain ⟨e, he⟩ := Option.isSome_iff_exists.mp hthere
    have hmem := (hfs.lookup?_eq_some (by simp [hne])).mp he
    have hlong := List.length_pos_iff.mpr hne
    refine ⟨rel, ⟨⟨_, hmem, ⟨List.prefix_append _ _, ?_⟩, by simp⟩, hname⟩, rfl⟩
    rw [List.length_append]
    omega

end Sources

end Files

end Conformance
