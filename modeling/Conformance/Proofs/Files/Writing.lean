import Conformance.Proofs.Files.Tree

/-!
# Writing below a path

A file is written in two steps: the directories above it are made where they are missing, then its content is put in
place.  Both succeed exactly if the path is `Writable`, which is said of the tree as it is before the first step: no
file stands on the way, and the place itself is no directory, neither before nor after the way has been made.  What
the two steps change is `Delivered`: one file, and new directories on the way to it.
-/

namespace Conformance

namespace Files

open Conformance.Path

/-! ## Directories -/

/-- The way has been made passable.  Every entry is kept, and new ones are directories on the way. -/
structure Opened (fs fs' : Files) (parts : List String) : Prop where
  passable : fs'.Passable parts
  kept : ∀ q e, fs.lookup? q = some e → fs'.lookup? q = some e
  elsewhere : ∀ q, ¬ OnWay parts q → fs'.lookup? q = fs.lookup? q
  closed : fs.Closed → fs'.Closed

namespace Opened

variable {fs fs₁ fs' : Files} {parts : List String}

theorem refl (h : fs.Passable parts) : Opened fs fs parts :=
  { passable := h
    kept := fun _ _ he => he
    elsewhere := fun _ _ => rfl
    closed := id }

/-- The way is longer by one directory, which is new. -/
theorem put {n : String} (hpass : fs.Passable parts) (hn : n ≠ "..")
    (hnew : fs.lookup? (Path.normalize parts ++ [n]) = none) :
    Opened fs (fs.put (Path.normalize parts ++ [n]) .directory) (parts ++ [n]) := by
  have hplace : Path.normalize parts ++ [n] ≠ [] := by simp
  have hkept (q : List String) (e : Entry) (he : fs.lookup? q = some e) :
      (fs.put (Path.normalize parts ++ [n]) .directory).lookup? q = some e := by
    rw [lookup?_put_of_ne fs hplace _ ?_, he]
    rintro rfl
    rw [hnew] at he
    cases he
  refine ⟨?_, hkept, ?_, ?_⟩
  · rw [passable_concat, normalize_concat_name parts hn]
    exact ⟨fun q hq => hkept q _ (hpass q hq), lookup?_put_self fs hplace _⟩
  · intro q hq
    apply lookup?_put_of_ne fs hplace
    rintro rfl
    exact hq (normalize_concat_name parts hn ▸ .end (parts ++ [n]))
  · intro hclosed q e he
    by_cases hq : q = Path.normalize parts ++ [n]
    · rw [hq, List.dropLast_concat]
      exact hkept _ _ (hpass _ (.end parts))
    · rw [lookup?_put_of_ne fs hplace _ hq] at he
      exact hkept _ _ (hclosed q e he)

theorem trans (h : Opened fs fs₁ parts.dropLast) (h' : Opened fs₁ fs' parts) : Opened fs fs' parts where
  passable := h'.passable
  kept := fun q e he => h'.kept q e (h.kept q e he)
  elsewhere := by
    intro q hq
    rw [h'.elsewhere q hq]
    exact h.elsewhere q fun hq' => hq (onWay_iff_dropLast.mpr (.inr hq'))
  closed := fun hclosed => h'.closed (h.closed hclosed)

end Opened

theorem makeDirectory_eq_ok {fs fs' : Files} {p : Path} (h : fs.makeDirectory p = .ok fs') :
    p.absolute = false ∧ Opened fs fs' p.parts := by
  unfold makeDirectory at h
  split at h
  · cases h
  rename_i above hlocate
  obtain ⟨habs, hpass, rfl⟩ := locate_eq_ok.mp hlocate
  refine ⟨habs, ?_⟩
  split at h
  · cases h
  · cases h
  rename_i hdir
  split_ifs at h with hlast hthere
  cases h
  rcases List.eq_nil_or_concat p.parts with hnil | ⟨before, n, hparts⟩
  · simp [hnil] at hlast
  rw [List.concat_eq_append] at hparts
  have hname : p.name = n := by simp [Path.name, hparts]
  have hn : n ≠ ".." := by
    rintro rfl
    simp [hname] at hlast
  simp only [Path.parent, hparts, List.dropLast_concat, hname, Option.not_isSome_iff_eq_none] at hpass hdir hthere ⊢
  exact .put (passable_iff_dropLast.mpr ⟨hpass, hdir⟩) hn hthere

theorem ensureDirectory_eq_ok {fs fs' : Files} {p : Path} (h : fs.ensureDirectory p = .ok fs') :
    p.absolute = false ∧ Opened fs fs' p.parts := by
  unfold ensureDirectory at h
  split at h
  · rename_i hmade
    cases h
    exact makeDirectory_eq_ok hmade
  · split_ifs at h with hthere
    cases h
    obtain ⟨habs, hpass⟩ := isDirectory_iff.mp (Bool.and_eq_true_iff.mp hthere).2
    exact ⟨habs, .refl hpass⟩

theorem makeDirectories_of_ok {fs fs' : Files} {p : Path} {depth : Nat} (h : fs.ensureDirectory p = .ok fs') :
    fs.makeDirectories depth p = .ok fs' := by
  cases depth <;> simp [makeDirectories, h]

theorem makeDirectories_of_error {fs : Files} {p : Path} {depth : Nat} {e : FileError}
    (h : fs.ensureDirectory p = .error e) :
    fs.makeDirectories (depth + 1) p = if e.fault == .notFound && p.parent != p then do
        let fs ← fs.makeDirectories depth p.parent
        fs.ensureDirectory p
      else .error e := by
  simp [makeDirectories, h]

/-- Directories that have been made open the way. -/
theorem makeDirectories_eq_ok {fs fs' : Files} {p : Path} {depth : Nat} (h : fs.makeDirectories depth p = .ok fs') :
    p.absolute = false ∧ Opened fs fs' p.parts := by
  induction depth generalizing fs' p with
  | zero =>
    rcases hensure : fs.ensureDirectory p with e | fs₁
    · simp [makeDirectories, hensure] at h
    · rw [makeDirectories_of_ok hensure] at h
      cases h
      exact ensureDirectory_eq_ok hensure
  | succ depth ih =>
    rcases hensure : fs.ensureDirectory p with e | fs₁
    · rw [makeDirectories_of_error hensure] at h
      split_ifs at h
      rcases habove : fs.makeDirectories depth p.parent with e | fs₁
      · rw [habove] at h
        cases h
      · rw [habove] at h
        obtain ⟨habs, hlast⟩ := ensureDirectory_eq_ok h
        exact ⟨habs, (ih habove).2.trans hlast⟩
    · rw [makeDirectories_of_ok hensure] at h
      cases h
      exact ensureDirectory_eq_ok hensure

/-- No file stands on the way. -/
def Clear (fs : Files) (parts : List String) : Prop :=
  ∀ q c, OnWay parts q → fs.lookup? q ≠ some (.file c)

theorem Clear.dropLast {fs : Files} {parts : List String} (h : fs.Clear parts) : fs.Clear parts.dropLast :=
  fun q c hq => h q c (onWay_iff_dropLast.mpr (.inr hq))

/-- The last directory of a way is made, or it is there. -/
theorem ensureDirectory_of_clear {fs : Files} {p : Path} (hclosed : fs.Closed) (habs : p.absolute = false)
    (hclear : fs.Clear p.parts) (hpass : fs.Passable p.parts.dropLast) : ∃ fs', fs.ensureDirectory p = .ok fs' := by
  have hlocate : fs.locate p.parent = .ok (Path.normalize p.parts.dropLast) :=
    locate_eq_ok.mpr ⟨habs, (passable_iff_dropLast.mp hpass).1, rfl⟩
  unfold ensureDirectory makeDirectory
  rw [hlocate]
  dsimp only
  rw [hpass _ (.end _)]
  dsimp only
  have hwhole (hdir : fs.lookup? (Path.normalize p.parts) = some .directory) : fs.isDirectory p = true :=
    isDirectory_iff.mpr ⟨habs, passable_iff_dropLast.mpr ⟨hpass, hdir⟩⟩
  rcases List.eq_nil_or_concat p.parts with hnil | ⟨before, n, hparts⟩
  · simp [hnil, hwhole]
  rw [List.concat_eq_append] at hparts
  have hname : p.name = n := by simp [Path.name, hparts]
  simp only [hparts, List.dropLast_concat] at hpass hwhole ⊢
  by_cases hn : n = ".."
  · have hdir : fs.lookup? (Path.normalize (before ++ [n])) = some .directory := by
      rw [normalize_concat, if_pos hn]
      exact hclosed _ _ (hpass _ (.end before))
    simp [hname, hn, hwhole hdir]
  · rw [normalize_concat_name before hn] at hwhole
    rw [hname]
    rcases hplace : fs.lookup? (Path.normalize before ++ [n]) with _ | c | _
    · simp [hn]
    · refine absurd hplace (hclear _ c ?_)
      rw [hparts, ← normalize_concat_name before hn]
      exact .end _
    · simp [hwhole hplace]

/-- Directories can be made if no file stands on the way. -/
theorem makeDirectories_of_clear {fs : Files} {p : Path} {depth : Nat} (hclosed : fs.Closed)
    (habs : p.absolute = false) (hclear : fs.Clear p.parts) (hdepth : p.parts.length ≤ depth) :
    ∃ fs', fs.makeDirectories depth p = .ok fs' := by
  induction depth generalizing p with
  | zero =>
    have hnil : p.parts = [] := List.length_eq_zero_iff.mp (Nat.le_zero.mp hdepth)
    obtain ⟨fs', h⟩ := ensureDirectory_of_clear hclosed habs hclear (by rw [hnil]; exact passable_nil fs)
    exact ⟨fs', makeDirectories_of_ok h⟩
  | succ depth ih =>
    by_cases hpass : fs.Passable p.parts.dropLast
    · obtain ⟨fs', h⟩ := ensureDirectory_of_clear hclosed habs hclear hpass
      exact ⟨fs', makeDirectories_of_ok h⟩
    have hne : p.parts ≠ [] := by
      intro hnil
      rw [hnil] at hpass
      exact hpass (passable_nil fs)
    have hensure : fs.ensureDirectory p = .error ⟨.notFound, p⟩ := by
      have hmake : fs.makeDirectory p = .error .notFound := by
        unfold makeDirectory
        rcases hlocate : fs.locate p.parent with fault | above
        · have hblocked : ¬ fs.Passable p.parent.parts.dropLast := by
            intro h
            have hok : fs.locate p.parent = .ok (Path.normalize p.parent.parts) := locate_eq_ok.mpr ⟨habs, h, rfl⟩
            rw [hok] at hlocate
            cases hlocate
          rw [locate_eq_notFound hblocked hclear.dropLast] at hlocate
          cases hlocate
          rfl
        · obtain ⟨-, habove, rfl⟩ := locate_eq_ok.mp hlocate
          dsimp only
          rcases hend : fs.lookup? (Path.normalize p.parent.parts) with _ | c | _
          · rfl
          · exact absurd hend (hclear.dropLast _ c (.end _))
          · exact absurd (passable_iff_dropLast.mpr ⟨habove, hend⟩) hpass
      simp [ensureDirectory, hmake]
    have hshort : p.parts.length ≠ 0 := fun h => hne (List.length_eq_zero_iff.mp h)
    have hparent : p.parent ≠ p := by
      intro h
      have hlength := congrArg (fun q : Path => q.parts.length) h
      simp only [Path.parent, List.length_dropLast] at hlength
      omega
    obtain ⟨fs₁, habove⟩ := ih (p := p.parent) habs hclear.dropLast (by
      rw [Path.parent, List.length_dropLast]
      omega)
    obtain ⟨-, hopened⟩ := makeDirectories_eq_ok habove
    have hclear₁ : fs₁.Clear p.parts := by
      intro q c hq hc
      by_cases hway : OnWay p.parts.dropLast q
      · rw [hopened.passable q hway] at hc
        cases hc
      · rw [hopened.elsewhere q hway] at hc
        exact hclear q c hq hc
    obtain ⟨fs', hlast⟩ := ensureDirectory_of_clear (hopened.closed hclosed) habs hclear₁ hopened.passable
    refine ⟨fs', ?_⟩
    rw [makeDirectories_of_error hensure, if_pos (by simp [hparent]), habove]
    exact hlast

/-! ## Files -/

/-- Above the end of a way there is a directory. -/
theorem Closed.above_place {fs : Files} {parts : List String} (h : fs.Closed) (hpass : fs.Passable parts.dropLast) :
    fs.lookup? (Path.normalize parts).dropLast = some .directory := by
  rcases List.eq_nil_or_concat parts with rfl | ⟨before, n, rfl⟩
  · rfl
  rw [List.concat_eq_append] at hpass ⊢
  rw [List.dropLast_concat] at hpass
  have hbefore := hpass _ (.end before)
  rw [normalize_concat]
  split_ifs
  · exact h _ _ (h _ _ hbefore)
  · rw [List.dropLast_concat]
    exact hbefore

/-- A text is written if the way is passable and the place is no directory. -/
theorem writeText_eq_ok {fs fs' : Files} {p : Path} {s : String} (hclosed : fs.Closed) :
    fs.writeText p s = .ok fs' ↔ p.absolute = false ∧ fs.Passable p.parts.dropLast ∧
      fs.lookup? (Path.normalize p.parts) ≠ some .directory ∧
      fs' = fs.put (Path.normalize p.parts) (.file (Text.Utf8.encode s)) := by
  unfold writeText
  constructor
  · intro h
    split at h
    · cases h
    rename_i parts hlocate
    obtain ⟨habs, hpass, rfl⟩ := locate_eq_ok.mp hlocate
    split at h
    · cases h
    · rename_i hplace
      cases h
      exact ⟨habs, hpass, hplace, rfl⟩
    · cases h
    · cases h
  · rintro ⟨habs, hpass, hplace, rfl⟩
    rw [locate_eq_ok.mpr ⟨habs, hpass, rfl⟩]
    dsimp only
    rw [hclosed.above_place hpass]
    rcases hthere : fs.lookup? (Path.normalize p.parts) with _ | c | _
    · rfl
    · rfl
    · exact absurd hthere hplace

/-- A text can be written to a path, once the directories above it have been made. -/
def Writable (fs : Files) (p : Path) : Prop :=
  ∃ fs₁ fs₂, fs.makeDirectories p.parts.length p.parent = .ok fs₁ ∧ fs₁.writeText p "" = .ok fs₂

instance (fs : Files) (p : Path) : Decidable (fs.Writable p) :=
  decidable_of_iff (((fs.makeDirectories p.parts.length p.parent).toOption.bind fun fs₁ =>
    (fs₁.writeText p "").toOption).isSome = true) <| by
    unfold Writable
    rcases fs.makeDirectories p.parts.length p.parent with e | fs₁
    · simp [Except.toOption]
    · rcases hwrite : fs₁.writeText p "" with e | fs₂
      · simp [Except.toOption, hwrite]
      · simp [Except.toOption, hwrite]

theorem writable_iff {fs : Files} {p : Path} (hclosed : fs.Closed) :
    fs.Writable p ↔ p.absolute = false ∧ fs.Clear p.parts.dropLast ∧
      fs.lookup? (Path.normalize p.parts) ≠ some .directory ∧ ¬ OnWay p.parts.dropLast (Path.normalize p.parts) := by
  constructor
  · rintro ⟨fs₁, fs₂, hmake, hwrite⟩
    obtain ⟨habs, hopened⟩ := makeDirectories_eq_ok hmake
    obtain ⟨-, -, hplace, -⟩ := (writeText_eq_ok (hopened.closed hclosed)).mp hwrite
    refine ⟨habs, ?_, fun hdir => hplace (hopened.kept _ _ hdir), fun hway => hplace (hopened.passable _ hway)⟩
    intro q c hq hc
    have hfile := hopened.kept q _ hc
    rw [hopened.passable q hq] at hfile
    cases hfile
  · rintro ⟨habs, hclear, hplace, hway⟩
    have hshort : p.parent.parts.length ≤ p.parts.length := by
      rw [Path.parent, List.length_dropLast]
      omega
    obtain ⟨fs₁, hmake⟩ := makeDirectories_of_clear (p := p.parent) hclosed habs hclear hshort
    obtain ⟨-, hopened⟩ := makeDirectories_eq_ok hmake
    refine ⟨fs₁, _, hmake, (writeText_eq_ok (hopened.closed hclosed)).mpr ⟨habs, hopened.passable, ?_, rfl⟩⟩
    rw [hopened.elsewhere _ hway]
    exact hplace

/-- One file has been written, and directories have been made on the way to it. -/
structure Delivered (fs fs' : Files) (p : Path) (content : List UInt8) : Prop where
  closed : fs'.Closed
  written : fs'.lookup? (Path.normalize p.parts) = some (.file content)
  directory : ∀ q, fs.lookup? q = some .directory → fs'.lookup? q = some .directory
  made : ∀ q, fs'.lookup? q = some .directory → fs.lookup? q = some .directory ∨ OnWay p.parts.dropLast q
  file : ∀ q c, q ≠ Path.normalize p.parts → (fs'.lookup? q = some (.file c) ↔ fs.lookup? q = some (.file c))

namespace Delivered

variable {fs fs' : Files} {p p' : Path} {content : List UInt8}

/-- Another path stays writable unless one of the two stands in the way of the other. -/
theorem writable (h : Delivered fs fs' p content) (hclosed : fs.Closed) (hp' : fs.Writable p')
    (hway : ¬ OnWay p'.parts.dropLast (Path.normalize p.parts)) (hway' : ¬ OnWay p.parts.dropLast (Path.normalize p'.parts)) :
    fs'.Writable p' := by
  obtain ⟨habs, hclear, hplace, hself⟩ := (writable_iff hclosed).mp hp'
  refine (writable_iff h.closed).mpr ⟨habs, ?_, ?_, hself⟩
  · intro q c hq hc
    have hne : q ≠ Path.normalize p.parts := by
      rintro rfl
      exact hway hq
    exact hclear q c hq ((h.file q c hne).mp hc)
  · intro hdir
    rcases h.made _ hdir with hdir | hmade
    · exact hplace hdir
    · exact hway' hmade

/-- What is read at another place does not change. -/
theorem readText (h : Delivered fs fs' p content) (hpass : fs.Passable p'.parts.dropLast)
    (hthere : (fs.lookup? (Path.normalize p'.parts)).isSome) (hne : Path.normalize p'.parts ≠ Path.normalize p.parts) :
    fs'.readText p' = fs.readText p' := by
  have hpass' : fs'.Passable p'.parts.dropLast := fun q hq => h.directory q (hpass q hq)
  have hlookup : fs'.lookup? (Path.normalize p'.parts) = fs.lookup? (Path.normalize p'.parts) := by
    rcases hentry : fs.lookup? (Path.normalize p'.parts) with _ | c | _
    · rw [hentry] at hthere
      cases hthere
    · exact (h.file _ c hne).mpr hentry
    · exact h.directory _ hentry
  have hbytes : fs'.readBytes p' = fs.readBytes p' := by
    unfold readBytes
    by_cases habs : p'.absolute = false
    · rw [locate_eq_ok.mpr ⟨habs, hpass, rfl⟩, locate_eq_ok.mpr ⟨habs, hpass', rfl⟩]
      dsimp only
      rw [hlookup]
    · have hroot : p'.absolute = true := by simpa using habs
      simp [locate, hroot]
  unfold Files.readText
  rw [hbytes]

end Delivered

end Files

end Conformance
