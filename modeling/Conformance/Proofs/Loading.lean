import Conformance.Loading

/-!
# The registry around a load

A module is registered once its text is expanded, and taken out again if running it fails.  What a load does to the
registry follows from where it ends: before the module is registered, or in running its text (`load_cases`).  Taking the
module out undoes the registration unless another module had the name (`remove_register`); that module is lost
(`load_registry`, `load_loses_module`).
-/

namespace Conformance

/-! ## Registries -/

namespace Registry

variable {m : Loaded} {r : Registry} {name other : String}

theorem register_cons_of_ne (old : Loaded) (h : name ≠ m.name) :
    register m ((name, old) :: r) = (name, old) :: register m r := by
  simp [register, h]

theorem remove_cons_of_ne (m : Loaded) (h : other ≠ name) :
    remove name ((other, m) :: r) = (other, m) :: remove name r := by
  simp [remove, h]

theorem lookup_register_self (m : Loaded) (r : Registry) : (register m r).lookup m.name = some m := by
  induction r with
  | nil => simp [register]
  | cons entry r ih =>
    obtain ⟨n, old⟩ := entry
    by_cases h : n = m.name
    · simp [register, h]
    · have hne : (m.name == n) = false := beq_eq_false_iff_ne.mpr (Ne.symm h)
      rw [register_cons_of_ne old h, List.lookup_cons, hne, ih]

theorem lookup_register_of_ne (h : name ≠ m.name) (r : Registry) : (register m r).lookup name = r.lookup name := by
  have hne : (name == m.name) = false := beq_eq_false_iff_ne.mpr h
  induction r with
  | nil => simp [register, List.lookup_cons, hne]
  | cons entry r ih =>
    obtain ⟨n, old⟩ := entry
    by_cases hn : n = m.name
    · subst hn
      simp [register, List.lookup_cons, hne]
    · rw [register_cons_of_ne old hn, List.lookup_cons, List.lookup_cons, ih]

theorem lookup_remove_self (name : String) (r : Registry) : (remove name r).lookup name = none := by
  rw [List.lookup_eq_none_iff]
  intro entry hentry
  have hkept : (entry.1 != name) = true := (List.mem_filter.mp hentry).2
  rwa [bne_comm]

theorem lookup_remove_of_ne (h : other ≠ name) (r : Registry) : (remove name r).lookup other = r.lookup other := by
  induction r with
  | nil => rfl
  | cons entry r ih =>
    obtain ⟨n, m⟩ := entry
    by_cases hn : n = name
    · subst hn
      have hne : (other == n) = false := beq_eq_false_iff_ne.mpr h
      rw [List.lookup_cons, hne, ← ih]
      simp [remove]
    · rw [remove_cons_of_ne m hn, List.lookup_cons, List.lookup_cons, ih]

/-- Taking a module out undoes its registration, if its name was free. -/
theorem remove_register (h : r.lookup m.name = none) : remove m.name (register m r) = r := by
  induction r with
  | nil => simp [register, remove]
  | cons entry r ih =>
    obtain ⟨n, old⟩ := entry
    rw [List.lookup_cons] at h
    have hn : n ≠ m.name := by
      rintro rfl
      simp at h
    have hne : (m.name == n) = false := beq_eq_false_iff_ne.mpr (Ne.symm hn)
    rw [hne] at h
    rw [register_cons_of_ne old hn, remove_cons_of_ne old hn, ih h]

end Registry

/-! ## Loads -/

/-- What comes before the text is expanded does not run anything. -/
theorem sourceText_not_raised {root : String} {fs : Files} {p : Path} {settings : Option Settings} {e : LoadError}
    (h : sourceText root fs p settings = .error e) (r : Raised) : e ≠ .raised r := by
  rintro rfl
  unfold sourceText at h
  dsimp only at h
  generalize fs.readText p = text at h
  split at h
  · cases h
  · split at h
    · cases text <;> cases h
    · generalize Settings.load root fs p.parent {} = found at h
      cases found with
      | error e => cases h
      | ok found => cases text <;> cases h

/-- A load ends before anything is registered, or it runs the expanded text. -/
theorem load_cases (root : String) (fs : Files) (registry : Registry) (counter : Nat) (p : Path) (name : String)
    (settings : Option Settings) :
    (∃ e, (∀ r, e ≠ .raised r) ∧ (load root fs registry counter p name settings).result = .error e ∧
        (load root fs registry counter p name settings).registry = registry) ∨
      ∃ next code, load root fs registry counter p name settings = loadText registry next
        { name := moduleName p name, file := p, world := { home := moduleName p name } } code := by
  unfold load
  cases hsource : sourceText root fs p settings with
  | error e => exact .inl ⟨e, sourceText_not_raised hsource, rfl, rfl⟩
  | ok found =>
    obtain ⟨settings, source⟩ := found
    dsimp only
    rcases (expandText settings p.text source).run { counter } with ⟨e | code, progress⟩
    · exact .inl ⟨.expansion e, fun r h => (by cases h), rfl, rfl⟩
    · exact .inr ⟨progress.counter, code, rfl⟩

/-- What running a text does to the registry: the module stands for its name, or the name is free. -/
theorem loadText_cases (registry : Registry) (counter : Nat) (m : Loaded) (code : String) :
    (∃ m', m'.name = m.name ∧ (loadText registry counter m code).result = .ok m' ∧
        (loadText registry counter m code).registry = (registry.register m).register m') ∨
      ∃ r, (loadText registry counter m code).result = .error (.raised r) ∧
        (loadText registry counter m code).registry = (registry.register m).remove m.name := by
  unfold loadText
  dsimp only
  rcases runText code m.world with ⟨r | _, world⟩
  · exact .inr ⟨r, rfl, rfl⟩
  · exact .inl ⟨{ m with world }, rfl, rfl, rfl⟩

/-- A load that returns sets the entry of its name, to the module that it returns, and no other.  A load that fails
changes no other entry either, and it leaves the registry as it was exactly if it fails before the module is registered
or its name was free.  If running the text fails, the name is free afterwards, whatever it stood for. -/
theorem load_registry (root : String) (fs : Files) (registry : Registry) (counter : Nat) (p : Path) (name : String)
    (settings : Option Settings) :
    let after := load root fs registry counter p name settings
    (∀ m, after.result = .ok m → m.name = moduleName p name ∧
      ∀ n, after.registry.lookup n = if n = moduleName p name then some m else registry.lookup n) ∧
    ∀ e, after.result = .error e →
      (after.registry = registry ↔ (∀ r, e ≠ .raised r) ∨ registry.lookup (moduleName p name) = none) ∧
      (∀ r, e = .raised r → after.registry.lookup (moduleName p name) = none) ∧
      ∀ n, n ≠ moduleName p name → after.registry.lookup n = registry.lookup n := by
  intro after
  rcases load_cases root fs registry counter p name settings with ⟨e, he, hresult, hregistry⟩ | ⟨next, code, hload⟩
  · change after.result = _ at hresult
    change after.registry = _ at hregistry
    rw [hresult, hregistry]
    refine ⟨fun m hm => (by cases hm), fun e' he' => ?_⟩
    cases he'
    exact ⟨⟨fun _ => .inl he, fun _ => rfl⟩, fun r hr => absurd hr (he r), fun n _ => rfl⟩
  change after = _ at hload
  clear_value after
  subst hload
  generalize hm : ({ name := moduleName p name, file := p, world := { home := moduleName p name } } : Loaded) = m
  have hname : m.name = moduleName p name := by rw [← hm]
  rw [← hname]
  rcases loadText_cases registry next m code with ⟨m', hm', hresult, hregistry⟩ | ⟨r, hresult, hregistry⟩
  · rw [hresult, hregistry]
    refine ⟨fun m'' h => ?_, fun e h => (by cases h)⟩
    cases h
    refine ⟨hm', fun n => ?_⟩
    by_cases hn : n = m.name
    · rw [if_pos hn, hn, ← hm', Registry.lookup_register_self]
    · rw [if_neg hn, Registry.lookup_register_of_ne (hm' ▸ hn), Registry.lookup_register_of_ne hn]
  · rw [hresult, hregistry]
    refine ⟨fun m' h => (by cases h), fun e h => ?_⟩
    cases h
    refine ⟨⟨fun hsame => .inr ?_, fun h => ?_⟩, fun _ _ => Registry.lookup_remove_self _ _, fun n hn => ?_⟩
    · rw [← hsame, Registry.lookup_remove_self]
    · rcases h with hraised | hfree
      · exact absurd rfl (hraised r)
      · exact Registry.remove_register hfree
    · rw [Registry.lookup_remove_of_ne hn, Registry.lookup_register_of_ne hn]

/-- A registered module. -/
def staleRegistry : Registry := [("m", { name := "m", file := { parts := ["a"] } })]

/-- A file whose text asks for a name that stands for nothing. -/
def failingFiles : Files := { entries := [(["m"], .file (Text.Utf8.encode "x"))] }

/-- The module that was registered before is lost. -/
theorem load_loses_module :
    (load "" failingFiles staleRegistry 0 { parts := ["m"] } "m" (some {})).result.isOk = false ∧
      (load "" failingFiles staleRegistry 0 { parts := ["m"] } "m" (some {})).registry.map Prod.fst = [] ∧
      staleRegistry.map Prod.fst = ["m"] := by
  decide +kernel

end Conformance
