import Mathlib
import Conformance.Proofs.Command.Batch
import Conformance.Proofs.Command.Messages
import Conformance.Proofs.Files.Path

/-!
# What a command says about paths

Whatever a command comes upon, and however it ends, every path that it names is one that the request gives or lies below
one (`carryOut_says`).
-/

namespace Conformance.Command

/-! ## Steps that say only some events -/

/-- In every world, what a step says has a property. -/
def Says (P : Event → Prop) {α : Type} (a : Action α) : Prop :=
  ∀ w, ∃ said, (a w).2.events = w.events ++ said ∧ ∀ e ∈ said, P e

section

variable {P : Event → Prop} {α β : Type}

theorem says_pure (a : α) : Says P (pure a : Action α) := fun w => ⟨[], (List.append_nil _).symm, by simp⟩

theorem says_throw (c : Crash) : Says P (throw c : Action α) := fun w => ⟨[], (List.append_nil _).symm, by simp⟩

theorem says_lift (x : Except Crash α) : Says P (liftM x : Action α) := fun w =>
  ⟨[], by cases x <;> exact (List.append_nil _).symm, by simp⟩

theorem says_modify {g : World → World} (h : ∀ w, (g w).events = w.events) : Says P (modify g : Action PUnit) :=
  fun w => ⟨[], (h w).trans (List.append_nil _).symm, by simp⟩

theorem says_say {e : Event} (h : P e) : Says P (say e) := by
  intro w
  rw [say_apply]
  refine ⟨[e].filter fun e => e.record.passes w.threshold, rfl, fun e' he' => ?_⟩
  rwa [List.mem_singleton.mp (List.mem_filter.mp he').1]

theorem says_bind {x : Action α} {f : α → Action β} (hx : Says P x) (hf : ∀ a, Says P (f a)) : Says P (x >>= f) := by
  intro w
  obtain ⟨said, hsaid, hP⟩ := hx w
  rcases hxw : x w with ⟨c | a, w'⟩
  · rw [Computation.bind_of_error hxw]
    rw [hxw] at hsaid
    exact ⟨said, hsaid, hP⟩
  · obtain ⟨said', hsaid', hP'⟩ := hf a w'
    rw [Computation.bind_of_ok hxw]
    rw [hxw] at hsaid
    refine ⟨said ++ said', ?_, by simpa [or_imp, forall_and] using ⟨hP, hP'⟩⟩
    rw [hsaid', hsaid, List.append_assoc]

theorem says_get_bind {f : World → Action β} (hf : ∀ w, Says P (f w)) : Says P (get >>= f) := by
  intro w
  rw [Computation.get_bind_apply]
  exact hf w w

theorem says_mapM {f : α → Action β} {xs : List α} (h : ∀ x ∈ xs, Says P (f x)) : Says P (xs.mapM f) := by
  induction xs with
  | nil => exact says_pure []
  | cons x xs ih =>
    obtain ⟨hx, hxs⟩ := List.forall_mem_cons.mp h
    rw [List.mapM_cons]
    exact says_bind hx fun _ => says_bind (ih hxs) fun _ => says_pure _

theorem says_forM_say {f : α → Event} {xs : List α} (h : ∀ x ∈ xs, P (f x)) :
    Says P (xs.forM fun x => say (f x)) := by
  intro w
  rw [forM_say_apply]
  refine ⟨(xs.map f).filter fun e => e.record.passes w.threshold, rfl, fun e he => ?_⟩
  obtain ⟨x, hx, rfl⟩ := List.mem_map.mp (List.mem_filter.mp he).1
  exact h x hx

theorem says_changing (f : Files → Except FileError Files) : Says P (changing f) := by
  refine says_get_bind fun w => ?_
  cases f w.files with
  | error e => exact says_throw _
  | ok files => exact says_modify fun _ => rfl

end

/-! ## Paths of a request -/

/-- A path that a request gives, with some names behind it. -/
def Request.Leads (r : Request) (p : Path) : Prop := ∃ given names, (given = r.path ∨ r.out = some given) ∧
  p = { Path.ofText given with parts := (Path.ofText given).parts ++ names }

/-- An event names only paths of a request, and the reason why a file cannot be read is about that file. -/
structure Event.About (r : Request) (e : Event) : Prop where
  leads : ∀ p ∈ e.paths, r.Leads p
  reason : ∀ p err, e = .unreadable p (.file err) → err.path = p

theorem Event.about_of_paths {r : Request} {e : Event} (h : e.paths = []) : e.About r where
  leads := by simp [h]
  reason := by
    rintro p err rfl
    cases h

theorem path_of_readText {fs : Files} {p : Path} {err : FileError} (h : fs.readText p = .error (.file err)) :
    err.path = p := by
  rcases Computation.except_bind_eq_error.mp h with hbytes | ⟨bytes, -, htext⟩
  · rcases hread : fs.readBytes p with e | bytes
    · obtain rfl : e = err := by simpa [hread, Except.mapError] using hbytes
      unfold Files.readBytes at hread
      split at hread
      · cases hread
        rfl
      · split at hread
        · cases hread
        · cases hread
          rfl
        · cases hread
          rfl
    · simp [hread, Except.mapError] at hbytes
  · rcases Computation.except_bind_eq_error.mp htext with hdecode | ⟨text, -, hreturn⟩
    · cases hread : Text.Utf8.decode bytes <;> simp [hread, Except.mapError] at hdecode
    · cases hreturn

section

variable {r : Request} {s : Settings} {input output : Path}

theorem says_expandNext (path : Path) (source : String) : Says (Event.About r) (expandNext s path source) := by
  refine says_get_bind fun w => ?_
  refine says_bind (says_modify fun _ => rfl) fun _ => ?_
  refine says_bind (says_forM_say fun _ _ => Event.about_of_paths rfl) fun _ => ?_
  split
  · exact says_throw _
  · exact says_bind (says_forM_say fun _ _ => Event.about_of_paths rfl) fun _ => says_pure _

theorem says_expandFile {dest : Destination} (hinput : r.Leads input)
    (houtput : ∀ output, dest = .file output → r.Leads output) :
    Says (Event.About r) (expandFile s input dest) := by
  refine says_get_bind fun w => ?_
  cases hread : w.files.readText input with
  | error e =>
    refine says_bind (says_say ⟨by simpa [Event.paths] using hinput, ?_⟩) fun _ => says_pure _
    rintro p err heq
    cases heq
    exact path_of_readText hread
  | ok source =>
    refine says_bind (says_expandNext input source) fun report => ?_
    split
    · exact says_pure _
    · cases dest with
      | nowhere => exact says_pure _
      | stdout => exact says_bind (says_modify fun _ => rfl) fun _ => says_pure _
      | file output =>
        refine says_bind (says_changing _) fun _ => says_bind (says_changing _) fun _ => ?_
        refine says_bind (says_say ⟨?_, by simp⟩) fun _ => says_pure _
        simpa [Event.paths] using ⟨hinput, houtput output rfl⟩

theorem says_loadSettings (hinput : r.Leads input) : Says (Event.About r) (loadSettings input r) := by
  refine says_get_bind fun w => ?_
  split
  · exact says_bind (says_say ⟨by simpa [Event.paths] using hinput, by simp⟩) fun _ => says_pure _
  · dsimp only
    split
    · exact says_bind (says_modify fun _ => rfl) fun _ => says_pure _
    · split
      · exact says_bind (says_say (Event.about_of_paths rfl)) fun _ => says_pure _
      · exact says_bind (says_say (Event.about_of_paths rfl)) fun _ => says_pure _
      · exact says_throw _

theorem leads_path (r : Request) : r.Leads (Path.ofText r.path) := ⟨r.path, [], .inl rfl, by simp⟩

theorem leads_out {out : String} (h : r.out = some out) : r.Leads (Path.ofText out) := ⟨out, [], .inr h, by simp⟩

theorem Request.Leads.below {p : Path} (h : r.Leads p) (names : List String) :
    r.Leads { p with parts := p.parts ++ names } := by
  obtain ⟨given, names', hgiven, rfl⟩ := h
  exact ⟨given, names' ++ names, hgiven, by simp⟩

theorem leads_of_mem_sources {fs : Files} {source : Path} (hinput : r.Leads input) (h : source ∈ fs.sources input) :
    r.Leads source := by
  unfold Files.sources at h
  split at h
  · cases h
  · obtain ⟨names, -, rfl⟩ := List.mem_map.mp h
    exact hinput.below names

theorem says_expandDirectory (hinput : r.Leads input) (houtput : r.Leads output) :
    Says (Event.About r) (expandDirectory s input output) := by
  refine says_get_bind fun w => ?_
  dsimp only
  split
  · exact says_bind (says_say ⟨by simpa [Event.paths] using hinput, by simp⟩) fun _ => says_pure _
  · refine says_bind (says_say ⟨by simpa [Event.paths] using hinput, by simp⟩) fun _ => ?_
    refine says_bind (says_mapM fun source hsource => ?_) fun results => ?_
    · refine says_bind (says_expandFile (leads_of_mem_sources hinput hsource) fun path hpath => ?_) fun _ => says_pure _
      cases hpath
      exact houtput.below _
    · split
      · exact says_bind (says_lift _) fun _ => says_bind (says_modify fun _ => rfl) fun _ => says_pure _
      · exact says_pure _

theorem says_runExpand (r : Request) : Says (Event.About r) (runExpand r) := by
  refine says_bind (says_loadSettings (leads_path r)) fun settings => ?_
  cases settings with
  | none => exact says_pure _
  | some settings =>
    refine says_get_bind fun w => ?_
    cases hout : r.out with
    | none =>
      split
      · exact says_bind (says_expandFile (leads_path r) fun _ h => by cases h) fun _ => says_pure _
      · exact says_bind (says_say (Event.about_of_paths rfl)) fun _ => says_pure _
    | some out =>
      split
      · refine says_bind (says_expandFile (leads_path r) fun path hpath => ?_) fun _ => says_pure _
        cases hpath
        exact leads_out hout
      · exact says_expandDirectory (leads_path r) (leads_out hout)

theorem says_runCheck (r : Request) : Says (Event.About r) (runCheck r) := by
  refine says_bind (says_loadSettings (leads_path r)) fun settings => ?_
  cases settings with
  | none => exact says_pure _
  | some settings =>
    refine says_get_bind fun w => says_bind (says_mapM fun source hsource => ?_) fun results => ?_
    · refine says_expandFile ?_ fun _ h => by cases h
      split at hsource
      · rw [List.mem_singleton.mp hsource]
        exact leads_path r
      · exact leads_of_mem_sources (leads_path r) hsource
    · dsimp only
      split
      · exact says_bind (says_say (Event.about_of_paths rfl)) fun _ => says_pure _
      · exact says_bind (says_say (Event.about_of_paths rfl)) fun _ => says_pure _

/-- Every path that a command names is one of its request, in all worlds. -/
theorem carryOut_says (r : Request) : Says (Event.About r) (carryOut r) := by
  unfold carryOut
  split
  · exact says_runExpand r
  · exact says_runCheck r

end

/-! ## Messages that show their paths -/

open Markup

/-- Every path that a command names is one of its request, or below one, and the components of a path that is given are
names.  A message that names paths shows what it is meant to show exactly if nothing in them is taken for markup; and
two such messages that show the same name the same paths, unless both are about files that have been expanded and
neither path is the same. -/
theorem messages_show_paths (pictures : Pictures) (hbook : Book pictures) :
    (∀ (r : Request) (w : World), ∃ said, (carryOut r w).2.events = w.events ++ said ∧ ∀ e ∈ said, e.About r) ∧
    (∀ given, (Path.ofText given).Proper) ∧
    (∀ e : Event, e.paths ≠ [] → (shownWith pictures e.record.message = .ok e.meant ↔ e.Harmless pictures)) ∧
    ∀ e e' : Event, e.paths ≠ [] → e'.paths ≠ [] → (∀ p ∈ e.paths ++ e'.paths, p.Proper) →
      e.Harmless pictures → e'.Harmless pictures →
      shownWith pictures e.record.message = shownWith pictures e'.record.message →
      e.paths = e'.paths ∨ ∃ a b a' b', e = .expanded a b ∧ e' = .expanded a' b' ∧ a ≠ a' ∧ b ≠ b' := by
  refine ⟨fun r => carryOut_says r, Path.proper_ofText, fun e => shows_meant_iff hbook, ?_⟩
  intro e e' h h' hproper hharmless hharmless' hshown
  have hmeant : e.meant = e'.meant := by
    have hfirst : shownWith pictures e.record.message = .ok e.meant := (shows_meant_iff hbook h).mpr hharmless
    have hsecond : shownWith pictures e'.record.message = .ok e'.meant := (shows_meant_iff hbook h').mpr hharmless'
    exact Except.ok.inj (hfirst.symm.trans (hshown.trans hsecond))
  obtain ⟨hpaths, hpaths'⟩ := List.forall_mem_append.mp hproper
  rcases paths_of_meant_eq h h' hmeant with htexts | ⟨a, b, a', b', rfl, rfl, hinput, houtput⟩
  · exact .inl (Path.eq_of_map_text hpaths hpaths' htexts)
  · exact .inr ⟨a, b, a', b', rfl, rfl, fun heq => hinput (by rw [heq]), fun heq => houtput (by rw [heq])⟩

/-- A file in a directory whose name is a bracketed number. -/
def bracketed : Event := .expanded { parts := ["[1]", "a.py"] } { parts := ["b:100.py"] }

theorem harmless_bracketed : bracketed.Harmless Diagnostic.hundred := by
  have hinput : Inert Diagnostic.hundred ('[' :: "1]/a.py".toList) := by
    -- no tag starts with a digit
    have huntagged : Untagged ('[' :: "1]/a.py".toList) :=
      untagged_cons_iff.mpr ⟨fun _ => not_opensTag_of_startsTag rfl, untagged_of_notMem (by decide)⟩
    exact ⟨huntagged, by unfold Unslashed; decide, by simp [isHidden], by simp [codes_of_notMem]⟩
  have houtput : Inert Diagnostic.hundred "b:100.py".toList :=
    Bland.inert ⟨by simp, by simp [isHidden], rfl⟩
  exact ⟨⟨hinput, by decide⟩, houtput, by decide⟩

theorem messages_show_paths_bracketed : Book Diagnostic.hundred ∧
    shownWith Diagnostic.hundred bracketed.record.message = .ok "Expanded: [1]/a.py -> b:100.py" :=
  ⟨Diagnostic.book_hundred, ((messages_show_paths _ Diagnostic.book_hundred).2.2.1 bracketed (by decide)).mpr
    harmless_bracketed⟩

/-- Names in brackets are not shown, so that different paths show the same; what looks like a closing tag cannot be
shown at all; and an arrow in a path can be taken for the one between two paths. -/
theorem messages_confuse_paths :
    shown (Event.inputMissing { parts := ["pkg", "[draft]", "a.py"] }).record.message =
        .ok "Input not found: pkg//a.py" ∧
    shown (Event.inputMissing { parts := ["pkg", "[final]", "a.py"] }).record.message =
        .ok "Input not found: pkg//a.py" ∧
    shown (Event.inputMissing { parts := ["a[", "b]"] }).record.message = .error (.notOpen "/b" 18) ∧
    shown (Event.expanded { parts := ["a -> b"] } { parts := ["c"] }).record.message = .ok "Expanded: a -> b -> c" ∧
    shown (Event.expanded { parts := ["a"] } { parts := ["b -> c"] }).record.message = .ok "Expanded: a -> b -> c" := by
  decide +kernel

end Conformance.Command
