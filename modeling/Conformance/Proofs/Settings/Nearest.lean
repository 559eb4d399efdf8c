import Conformance.Settings.Load
import Conformance.Proofs.Files.Tree

/-!
# The nearest file with settings

The search goes up from the start and stops at the first directory with a file of settings, so what it finds is
`Closest`.  It looks only into the directories from the start up to that one (`Searched`), and files with settings
anywhere else could be any others (`AgreeOnSearched`).
-/

namespace Conformance.Settings

/-- Of the directories from `here` upwards, `dir` is the closest one that has a file with settings. -/
structure Closest (fs : Files) (here dir : List String) (content : List UInt8) : Prop where
  above : dir <+: here
  there : fs.lookup? (dir ++ [settingsFile]) = some (.file content)
  first : ∀ d c, d <+: here → fs.lookup? (d ++ [settingsFile]) = some (.file c) → d <+: dir

variable {fs fs' : Files} {here dir : List String} {content : List UInt8} {start : Path}

theorem Closest.unique {dir' : List String} {content' : List UInt8} (h : Closest fs here dir content)
    (h' : Closest fs here dir' content') : dir = dir' ∧ content = content' := by
  have hdir : dir = dir' :=
    (h'.first dir content h.above h.there).eq_of_length_le (h.first dir' content' h'.above h'.there).length_le
  subst hdir
  have hcontent := h.there.symm.trans h'.there
  simp only [Option.some.injEq, Entry.file.injEq] at hcontent
  exact ⟨rfl, hcontent⟩

theorem closest_self (h : fs.lookup? (here ++ [settingsFile]) = some (.file content)) :
    Closest fs here here content :=
  ⟨List.prefix_refl here, h, fun _ _ hd _ => hd⟩

/-- A directory without a file of settings is passed over. -/
theorem closest_concat {p : String} (h : ∀ c, fs.lookup? (here ++ [p] ++ [settingsFile]) ≠ some (.file c)) :
    Closest fs (here ++ [p]) dir content ↔ Closest fs here dir content := by
  constructor
  · intro hclosest
    refine ⟨?_, hclosest.there, fun d c hd => hclosest.first d c (List.prefix_concat_iff.mpr (.inr hd))⟩
    rcases List.prefix_concat_iff.mp hclosest.above with rfl | habove
    · exact absurd hclosest.there (h content)
    · exact habove
  · intro hclosest
    refine ⟨List.prefix_concat_iff.mpr (.inr hclosest.above), hclosest.there, fun d c hd hc => ?_⟩
    rcases List.prefix_concat_iff.mp hd with rfl | hd
    · exact absurd hc (h c)
    · exact hclosest.first d c hd hc

/-! ## The search -/

theorem directoriesAbove_nil : directoriesAbove [] = [[]] := rfl

theorem directoriesAbove_concat (here : List String) (p : String) :
    directoriesAbove (here ++ [p]) = (here ++ [p]) :: directoriesAbove here := by
  unfold directoriesAbove
  rw [List.length_append, List.length_singleton, List.range_succ_eq_map, List.map_cons, List.map_map]
  have hself : List.take (here.length + 1 - 0) (here ++ [p]) = here ++ [p] := by simp
  have habove : ∀ n, List.take (here.length + 1 - (n + 1)) (here ++ [p]) = List.take (here.length - n) here := by
    intro n
    rw [Nat.add_sub_add_right, List.take_append_of_le_length (Nat.sub_le _ _)]
  rw [hself]
  exact congrArg _ (List.map_congr_left fun n _ => habove n)

theorem mem_directoriesAbove {d : List String} : d ∈ directoriesAbove here ↔ d <+: here := by
  induction here using List.reverseRecOn with
  | nil => simp [directoriesAbove_nil]
  | append_singleton here p ih => rw [directoriesAbove_concat, List.mem_cons, ih, List.prefix_concat_iff]

/-- The file with settings in a directory, with the directory. -/
def found? (fs : Files) (dir : List String) : Option (List String × List UInt8) :=
  match fs.lookup? (dir ++ [settingsFile]) with
  | some (.file content) => some (dir, content)
  | _ => none

theorem found?_eq_some {r : List String × List UInt8} :
    found? fs dir = some r ↔ r.1 = dir ∧ fs.lookup? (dir ++ [settingsFile]) = some (.file r.2) := by
  unfold found?
  obtain ⟨dir', content⟩ := r
  rcases fs.lookup? (dir ++ [settingsFile]) with _ | c | _
  · simp
  · simp [eq_comm]
  · simp

theorem found?_eq_none : found? fs dir = none ↔ ∀ c, fs.lookup? (dir ++ [settingsFile]) ≠ some (.file c) := by
  unfold found?
  rcases fs.lookup? (dir ++ [settingsFile]) with _ | c | _ <;> simp

theorem nearestFile?_eq (fs : Files) (start : Path) :
    nearestFile? fs start = (directoriesAbove (searchStart fs start)).findSome? (found? fs) := rfl

theorem findSome?_found? :
    (directoriesAbove here).findSome? (found? fs) = some (dir, content) ↔ Closest fs here dir content := by
  induction here using List.reverseRecOn with
  | nil =>
    rw [directoriesAbove_nil, List.findSome?_singleton, found?_eq_some]
    constructor
    · rintro ⟨rfl, h⟩
      exact closest_self h
    · intro h
      obtain rfl := List.prefix_nil.mp h.above
      exact ⟨rfl, h.there⟩
  | append_singleton here p ih =>
    rw [directoriesAbove_concat, List.findSome?_cons]
    rcases hfound : found? fs (here ++ [p]) with _ | r
    · exact ih.trans (closest_concat (found?_eq_none.mp hfound)).symm
    · obtain ⟨hdir, hcontent⟩ := found?_eq_some.mp hfound
      have hself := closest_self hcontent
      rw [← hdir] at hself ⊢
      constructor
      · intro h
        obtain rfl := Option.some.inj h
        exact hself
      · intro h
        obtain ⟨rfl, rfl⟩ := hself.unique h
        rfl

/-- What is found is the file of the closest directory that has one. -/
theorem nearestFile?_eq_some :
    nearestFile? fs start = some (dir, content) ↔ Closest fs (searchStart fs start) dir content := by
  rw [nearestFile?_eq, findSome?_found?]

/-- Nothing is found if no directory from the start upwards has a file with settings. -/
theorem nearestFile?_eq_none :
    nearestFile? fs start = none ↔
      ∀ d c, d <+: searchStart fs start → fs.lookup? (d ++ [settingsFile]) ≠ some (.file c) := by
  rw [nearestFile?_eq, List.findSome?_eq_none_iff]
  simp only [mem_directoriesAbove, found?_eq_none]
  exact ⟨fun h d c hd => h d hd c, fun h d hd c => h d c hd⟩

/-! ## The directories that matter -/

/-- The directories from the start up to the closest one with a file of settings, or all the way up if there is
none. -/
def Searched (fs : Files) (here d : List String) : Prop :=
  d <+: here ∧ ∀ dir content, Closest fs here dir content → dir <+: d

theorem Closest.searched (h : Closest fs here dir content) : Searched fs here dir := by
  refine ⟨h.above, fun dir' content' h' => ?_⟩
  rw [(h.unique h').1]

/-- The other tree may differ in files with settings outside of the directories that are searched: they may be
missing, added or changed. -/
def AgreeOnSearched (start : Path) (fs fs' : Files) : Prop :=
  ∀ q, fs'.lookup? q = fs.lookup? q ∨ ∃ d, q = d ++ [settingsFile] ∧ ¬ Searched fs (searchStart fs start) d

theorem AgreeOnSearched.lookup? (h : AgreeOnSearched start fs fs') {d : List String}
    (hd : Searched fs (searchStart fs start) d) :
    fs'.lookup? (d ++ [settingsFile]) = fs.lookup? (d ++ [settingsFile]) := by
  rcases h (d ++ [settingsFile]) with heq | ⟨d', hd', hout⟩
  · exact heq
  · rw [List.append_cancel_right hd'] at hd
    exact absurd hd hout

theorem searchStart_of_file {c : List UInt8} (h : fs.lookup? (Path.normalize start.parts) = some (.file c)) :
    searchStart fs start = (Path.normalize start.parts).dropLast := by
  simp only [searchStart, h]

theorem searchStart_of_not_file (h : ∀ c, fs.lookup? (Path.normalize start.parts) ≠ some (.file c)) :
    searchStart fs start = Path.normalize start.parts := by
  rcases hentry : fs.lookup? (Path.normalize start.parts) with _ | c | _
  · simp only [searchStart, hentry]
  · exact absurd hentry (h c)
  · simp only [searchStart, hentry]

/-- Both searches start in the same directory, even if the start itself has the name of a file with settings. -/
theorem AgreeOnSearched.searchStart_eq (h : AgreeOnSearched start fs fs') (hclosed : fs'.Closed) :
    searchStart fs' start = searchStart fs start := by
  rcases h (Path.normalize start.parts) with heq | ⟨d, hstart, hout⟩
  · simp only [searchStart, heq]
  by_cases hfile : ∃ c, fs.lookup? (Path.normalize start.parts) = some (.file c)
  · -- the start is the file that is found, so its directory is searched
    obtain ⟨c, hc⟩ := hfile
    have hhere : searchStart fs start = d := by rw [searchStart_of_file hc, hstart, List.dropLast_concat]
    rw [hstart] at hc
    rw [hhere] at hout
    exact absurd (closest_self hc).searched hout
  · have hhere := searchStart_of_not_file (not_exists.mp hfile)
    -- `d` is right above the start and not searched, so the search ends in the start, a directory in both trees
    have hclosest : ∃ content, Closest fs (d ++ [settingsFile]) (d ++ [settingsFile]) content := by
      by_contra hnone
      rw [hhere, hstart] at hout
      refine hout ⟨List.prefix_append d _, fun dir content hdir => ?_⟩
      rcases List.prefix_concat_iff.mp hdir.above with rfl | habove
      · exact absurd ⟨content, hdir⟩ hnone
      · exact habove
    obtain ⟨content, hclosest⟩ := hclosest
    rw [← hstart, ← hhere] at hclosest
    have hthere := (h.lookup? hclosest.searched).trans hclosest.there
    rw [hhere] at hthere ⊢
    apply searchStart_of_not_file
    intro c hc
    rw [hclosed.above (List.cons_ne_nil _ _) hthere] at hc
    cases hc

/-- The search depends on its start and on the directories it looks into. -/
theorem nearestFile?_congr (hstart : searchStart fs' start = searchStart fs start)
    (h : ∀ d, Searched fs (searchStart fs start) d →
      fs'.lookup? (d ++ [settingsFile]) = fs.lookup? (d ++ [settingsFile])) :
    nearestFile? fs' start = nearestFile? fs start := by
  rcases hnearest : nearestFile? fs start with _ | ⟨dir, content⟩
  · rw [nearestFile?_eq_none] at hnearest
    rw [nearestFile?_eq_none, hstart]
    intro d c hd
    rw [h d ⟨hd, fun dir content hdir => absurd hdir.there (hnearest dir content hdir.above)⟩]
    exact hnearest d c hd
  · rw [nearestFile?_eq_some] at hnearest
    rw [nearestFile?_eq_some, hstart]
    refine ⟨hnearest.above, (h dir hnearest.searched).trans hnearest.there, fun d c hd hc => ?_⟩
    rcases List.prefix_or_prefix_of_prefix hd hnearest.above with hup | hdown
    · exact hup
    · -- further down than what is found, the directories are searched and have no file
      have hsearched : Searched fs (searchStart fs start) d := by
        refine ⟨hd, fun dir' content' hdir' => ?_⟩
        rw [← (hnearest.unique hdir').1]
        exact hdown
      exact hnearest.first d c hd ((h d hsearched).symm.trans hc)

/-- Files with settings outside of the directories that are searched do not change what is found. -/
theorem AgreeOnSearched.nearestFile?_eq (h : AgreeOnSearched start fs fs') (hclosed : fs'.Closed) :
    nearestFile? fs' start = nearestFile? fs start :=
  nearestFile?_congr (h.searchStart_eq hclosed) fun _ => h.lookup?

end Conformance.Settings
