import Mathlib
import Conformance.Proofs.Computation
import Conformance.Proofs.Settings.Nearest

/-!
# Where the value of a field comes from

Settings are loaded from the table of the nearest file (`TableFor`).  Each field is by itself the value that the caller
gives, or else that of the table, or else the default (`fieldValue`), and only the value that is taken is checked.
-/

namespace Conformance

open Text

/-- A later entry counts before an earlier one. -/
theorem Datum.find?_append (key : String) (xs ys : List (String × Datum)) :
    Datum.find? key (xs ++ ys) = (Datum.find? key ys).or (Datum.find? key xs) := by
  unfold Datum.find?
  rw [List.reverse_append, List.find?_append, Option.map_or]

theorem Overrides.find?_entries (o : Overrides) :
    Datum.find? "test_prefix" o.entries = o.testPrefix ∧ Datum.find? "module_aliases" o.entries = o.aliases ∧
      Datum.find? "log_level" o.entries = o.logLevel := by
  rcases o with ⟨_ | p, _ | a, _ | l⟩ <;> exact ⟨rfl, rfl, rfl⟩

namespace Settings

/-! ## One field -/

/-- The value of a field from the one that is given and the one in the file. -/
def fieldValue {α : Type} (check : Datum → Except (List Problem) α) (default : α) :
    Option Datum → Option Datum → Except (List Problem) α
  | some given, _ => check given
  | none, some written => check written
  | none, none => .ok default

theorem checkField_append {α : Type} (entries given : List (String × Datum)) (name : String) (default : α)
    (check : PathStep → Datum → Except (List Problem) α) :
    checkField (entries ++ given) name default check =
      fieldValue (check (.field name)) default (Datum.find? name given) (Datum.find? name entries) := by
  unfold checkField
  rw [Datum.find?_append]
  rcases Datum.find? name given with _ | d
  · rcases Datum.find? name entries with _ | d <;> rfl
  · rfl

/-- What becomes of the beginning of the names of tests. -/
def prefixFor (o : Overrides) (entries : List (String × Datum)) : Except (List Problem) String :=
  fieldValue (placed checkPrefix (.field "test_prefix")) ({} : Settings).testPrefix o.testPrefix
    (Datum.find? "test_prefix" entries)

/-- What becomes of the module names. -/
def aliasesFor (o : Overrides) (entries : List (String × Datum)) : Except (List Problem) (List String) :=
  fieldValue (checkAliases (.field "module_aliases")) ({} : Settings).aliases o.aliases
    (Datum.find? "module_aliases" entries)

/-- What becomes of the level. -/
def levelFor (o : Overrides) (entries : List (String × Datum)) : Except (List Problem) Level :=
  fieldValue (placed checkLevel (.field "log_level")) ({} : Settings).logLevel o.logLevel
    (Datum.find? "log_level" entries)

/-- The tables have the same values in the fields that are not given. -/
def SameUnset (o : Overrides) (entries entries' : List (String × Datum)) : Prop :=
  (o.testPrefix = none → Datum.find? "test_prefix" entries' = Datum.find? "test_prefix" entries) ∧
    (o.aliases = none → Datum.find? "module_aliases" entries' = Datum.find? "module_aliases" entries) ∧
    (o.logLevel = none → Datum.find? "log_level" entries' = Datum.find? "log_level" entries)

/-- A value in the file is not looked at if one is given. -/
theorem fieldValue_congr {α : Type} {check : Datum → Except (List Problem) α} {default : α}
    {given written written' : Option Datum} (h : given = none → written' = written) :
    fieldValue check default given written' = fieldValue check default given written := by
  cases given with
  | none => rw [h rfl]
  | some d => rfl

/-! ## All fields -/

/-- The settings of three fields, or the problems of all of them. -/
def assembled (testPrefix : Except (List Problem) String) (aliases : Except (List Problem) (List String))
    (logLevel : Except (List Problem) Level) : Except (List Problem) Settings :=
  match testPrefix, aliases, logLevel with
  | .ok testPrefix, .ok aliases, .ok logLevel => .ok { testPrefix, aliases, logLevel }
  | _, _, _ => .error (problemsOf testPrefix ++ problemsOf aliases ++ problemsOf logLevel)

theorem assembled_eq_ok {p : Except (List Problem) String} {a : Except (List Problem) (List String)}
    {l : Except (List Problem) Level} {s : Settings} :
    assembled p a l = .ok s ↔ p = .ok s.testPrefix ∧ a = .ok s.aliases ∧ l = .ok s.logLevel := by
  obtain ⟨testPrefix, aliases, logLevel⟩ := s
  rcases p with ps | p
  · simp [assembled]
  rcases a with ps | a
  · simp [assembled]
  rcases l with ps | l <;> simp [assembled]

theorem problems_of_assembled {p : Except (List Problem) String} {a : Except (List Problem) (List String)}
    {l : Except (List Problem) Level} {ps : List Problem} (h : assembled p a l = .error ps) :
    ps = problemsOf p ++ problemsOf a ++ problemsOf l := by
  rcases p with _ | _ <;> rcases a with _ | _ <;> rcases l with _ | _ <;> cases h <;> rfl

theorem ofEntries_append (entries : List (String × Datum)) (o : Overrides) :
    Settings.ofEntries (entries ++ o.entries) =
      assembled (prefixFor o entries) (aliasesFor o entries) (levelFor o entries) := by
  obtain ⟨hname, haliases, hlevel⟩ := o.find?_entries
  simp only [Settings.ofEntries, checkField_append, hname, haliases, hlevel]
  rfl

/-! ## The table -/

/-- The table `tool.tested_trait` of a document, which is empty if it is absent. -/
inductive TableIn (document : List (String × Datum)) : List (String × Datum) → Prop where
  | noTools (h : Datum.find? "tool" document = none) : TableIn document []
  | absent {tools : List (String × Datum)} (htools : Datum.find? "tool" document = some (.table tools))
      (h : Datum.find? "tested_trait" tools = none) : TableIn document []
  | present {tools entries : List (String × Datum)} (htools : Datum.find? "tool" document = some (.table tools))
      (h : Datum.find? "tested_trait" tools = some (.table entries)) : TableIn document entries

/-- The table that settings are loaded from: that of the file in the closest directory, whatever the files further up
are, and an empty one if there is no file. -/
inductive TableFor (fs : Files) (start : Path) : List (String × Datum) → Prop where
  | noFile (h : ∀ d c, d <+: searchStart fs start → fs.lookup? (d ++ [settingsFile]) ≠ some (.file c)) :
      TableFor fs start []
  | file {dir : List String} {content : List UInt8} {s : String} {document entries : List (String × Datum)}
      (hclosest : Closest fs (searchStart fs start) dir content) (hdecode : Utf8.decode content = .ok s)
      (hparse : Toml.parse s = .ok document) (h : TableIn document entries) : TableFor fs start entries

section

variable {root file : String} {fs fs' : Files} {start : Path} {o : Overrides} {entries document : List (String × Datum)}
  {dir : List String} {content : List UInt8} {s : String}

theorem settingsIn_of_noTools (h : Datum.find? "tool" document = none) : settingsIn document = .ok (.table []) := by
  unfold settingsIn
  rw [h]
  rfl

theorem settingsIn_of_tools {tools : List (String × Datum)} (h : Datum.find? "tool" document = some (.table tools)) :
    settingsIn document = .ok ((Datum.find? "tested_trait" tools).getD (.table [])) := by
  unfold settingsIn
  rw [h]
  rfl

theorem TableIn.settingsIn_eq (h : TableIn document entries) : settingsIn document = .ok (.table entries) := by
  cases h with
  | noTools h => exact settingsIn_of_noTools h
  | absent htools h => rw [settingsIn_of_tools htools, h, Option.getD_none]
  | present htools h => rw [settingsIn_of_tools htools, h, Option.getD_some]

theorem readSettings_of_parsed (hdecode : Utf8.decode content = .ok s) (hparse : Toml.parse s = .ok document) :
    readSettings file content = settingsIn document := by
  unfold readSettings
  rw [hdecode]
  dsimp only [Except.mapError, bind, Except.bind]
  rw [hparse]

theorem readSettings_of_malformed (hdecode : Utf8.decode content = .ok s)
    (hparse : Toml.parse s = .error .malformed) : readSettings file content = .error (.malformed file) := by
  unfold readSettings
  rw [hdecode]
  dsimp only [Except.mapError, bind, Except.bind]
  rw [hparse]
  rfl

theorem fileSettings_of_closest (h : Closest fs (searchStart fs start) dir content) :
    fileSettings root fs start = readSettings (absoluteText root (dir ++ [settingsFile])) content := by
  unfold fileSettings
  rw [nearestFile?_eq_some.mpr h]

theorem TableFor.fileSettings_eq (h : TableFor fs start entries) :
    fileSettings root fs start = .ok (.table entries) := by
  cases h with
  | noFile h =>
    unfold fileSettings
    rw [nearestFile?_eq_none.mpr h]
  | file hclosest hdecode hparse h =>
    rw [fileSettings_of_closest hclosest, readSettings_of_parsed hdecode hparse, h.settingsIn_eq]

/-! ## Settings -/

theorem load_of_error {e : SettingsError} (h : fileSettings root fs start = .error e) :
    Settings.load root fs start o = .error e := by
  unfold Settings.load
  rw [h]
  rfl

/-- From a table the three fields are taken one by one. -/
theorem TableFor.load_eq (h : TableFor fs start entries) :
    Settings.load root fs start o =
      (assembled (prefixFor o entries) (aliasesFor o entries) (levelFor o entries)).mapError .invalid := by
  unfold Settings.load
  rw [h.fileSettings_eq, ← ofEntries_append]
  rfl

theorem AgreeOnSearched.load_eq (h : AgreeOnSearched start fs fs') (hclosed : fs'.Closed) :
    Settings.load root fs' start o = Settings.load root fs start o := by
  unfold Settings.load fileSettings
  rw [h.nearestFile?_eq hclosed]

end

theorem mapError_eq_ok {ε ε' α : Type} {f : ε → ε'} {x : Except ε α} {a : α} : x.mapError f = .ok a ↔ x = .ok a := by
  cases x <;> simp [Except.mapError]

theorem mapError_eq_error {ε ε' α : Type} {f : ε → ε'} {x : Except ε α} {e : ε'} :
    x.mapError f = .error e ↔ ∃ e', x = .error e' ∧ f e' = e := by
  cases x <;> simp [Except.mapError]

/-- Settings come from the nearest file, and values that are given win.  Files with settings outside of the
directories that are searched change nothing, neither for the better nor for the worse: if the nearest file is
malformed there are no settings.  From its table each field is the checked value that is given, or else the checked
value in the table, or else the default, and the problems are those of these checks.  So a value in the table that one
is given for could be any other, or none. -/
theorem load_nearest (root : String) (fs : Files) (start : Path) (o : Overrides) :
    (∀ fs', fs'.Closed → AgreeOnSearched start fs fs' →
      Settings.load root fs' start o = Settings.load root fs start o) ∧
    (∀ dir content s, Closest fs (searchStart fs start) dir content → Utf8.decode content = .ok s →
      Toml.parse s = .error .malformed →
      Settings.load root fs start o = .error (.malformed (absoluteText root (dir ++ [settingsFile])))) ∧
    ∀ entries, TableFor fs start entries →
      (∀ s, Settings.load root fs start o = .ok s ↔
        prefixFor o entries = .ok s.testPrefix ∧ aliasesFor o entries = .ok s.aliases ∧
          levelFor o entries = .ok s.logLevel) ∧
      (∀ e, Settings.load root fs start o = .error e → e = .invalid (problemsOf (prefixFor o entries) ++
        problemsOf (aliasesFor o entries) ++ problemsOf (levelFor o entries))) ∧
      ∀ fs' start' entries', TableFor fs' start' entries' → SameUnset o entries entries' →
        Settings.load root fs' start' o = Settings.load root fs start o := by
  refine ⟨fun fs' hclosed h => h.load_eq hclosed, fun dir content s hclosest hdecode hparse => ?_, fun entries h => ?_⟩
  · apply load_of_error
    rw [fileSettings_of_closest hclosest, readSettings_of_malformed hdecode hparse]
  refine ⟨fun s => ?_, fun e he => ?_, fun fs' start' entries' h' hsame => ?_⟩
  · rw [h.load_eq, mapError_eq_ok, assembled_eq_ok]
  · rw [h.load_eq, mapError_eq_error] at he
    obtain ⟨ps, hps, rfl⟩ := he
    rw [problems_of_assembled hps]
  · obtain ⟨hname, haliases, hlevel⟩ := hsame
    rw [h.load_eq, h'.load_eq]
    unfold prefixFor aliasesFor levelFor
    rw [fieldValue_congr hname, fieldValue_congr haliases, fieldValue_congr hlevel]

/-! A directory with a file of settings, below another one with a file that is not looked at. -/

namespace Nested

/-- The nearest file, whose level is not valid. -/
def inner : String := "[tool.tested_trait]\nmodule_aliases = []\nlog_level = 5\n"

/-- The directories and the nearest file, and a file further up. -/
def tree (outer : String) : Files :=
  Files.put
    { entries := [(["pkg"], .directory), (["pkg", "sub"], .directory),
        (["pkg", settingsFile], .file (Utf8.encode inner))] }
    [settingsFile] (.file (Utf8.encode outer))

def start : Path := { parts := ["pkg", "sub"] }

def entries : List (String × Datum) := [("module_aliases", .list []), ("log_level", .integer 5)]

theorem closest (outer : String) :
    Closest (tree outer) (searchStart (tree outer) start) ["pkg"] (Utf8.encode inner) :=
  nearestFile?_eq_some.mp rfl

theorem tableFor (outer : String) : TableFor (tree outer) start entries := by
  have hparse : Toml.parse inner = .ok [("tool", .table [("tested_trait", .table entries)])] := by cbv
  exact .file (closest outer) rfl hparse (.present rfl rfl)

theorem agreeOnSearched (outer outer' : String) : AgreeOnSearched start (tree outer) (tree outer') := by
  intro q
  by_cases hq : q = [settingsFile]
  · refine .inr ⟨[], hq, fun hsearched => ?_⟩
    have habove := hsearched.2 _ _ (closest outer)
    cases List.prefix_nil.mp habove
  · refine .inl ?_
    unfold tree
    rw [Files.lookup?_put_of_ne _ (List.cons_ne_nil _ _) _ hq, Files.lookup?_put_of_ne _ (List.cons_ne_nil _ _) _ hq]

end Nested

/-- The file further up is malformed, and the level in the nearest one is not valid. -/
theorem load_nearest_nested :
    Settings.load "" (Nested.tree "[") Nested.start { logLevel := some (.text "info") } =
      .ok { aliases := [], logLevel := .info } := by
  have hclosed : (Nested.tree "[").Closed := Files.WellFormed.closed ⟨by decide, by decide, by decide⟩
  obtain ⟨hother, -, hfields⟩ := load_nearest "" (Nested.tree "") Nested.start { logLevel := some (.text "info") }
  rw [hother (Nested.tree "[") hclosed (Nested.agreeOnSearched "" "[")]
  exact ((hfields Nested.entries (Nested.tableFor "")).1 _).mpr ⟨rfl, rfl, by decide⟩

end Settings

end Conformance
