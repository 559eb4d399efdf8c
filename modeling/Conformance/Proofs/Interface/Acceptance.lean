import Mathlib.Data.List.Nodup
import Conformance.Proofs.Interface.Rules

/-!
# Which interfaces are accepted

The names of the tests of an interface have to differ.  `FirstRepeated` is the first repetition of a name, and
`firstDuplicate?` finds it.

`expandInterface_accepts_exactly` says which statements are expanded as interfaces, and what is reported of any other.
It is looked at in this order: the arguments of the marker, whether there is a class, the rules for each test, and
only then the names of the tests.
-/

namespace Conformance

open Source

/-! ## Two tests of one name -/

/-- The first item whose name an earlier item has, with the first item of that name. -/
def FirstRepeated {α : Type} (name : α → String) (xs : List α) (first second : α) : Prop :=
  ∃ front between after, xs = front ++ first :: (between ++ second :: after) ∧
    ((front ++ first :: between).map name).Nodup ∧ name first = name second

/-- A name can be added to names that differ if it is none of them. -/
theorem nodup_names_snoc {seen : List AssociatedTest} {t : AssociatedTest} :
    ((seen ++ [t]).map AssociatedTest.name).Nodup ↔
      (seen.map AssociatedTest.name).Nodup ∧ ∀ s ∈ seen, s.name ≠ t.name := by
  simp [List.nodup_append]

theorem firstDuplicate?_eq_none {seen ts : List AssociatedTest} (hseen : (seen.map AssociatedTest.name).Nodup) :
    firstDuplicate? seen ts = none ↔ ((seen ++ ts).map AssociatedTest.name).Nodup := by
  induction ts generalizing seen with
  | nil => simpa [firstDuplicate?] using hseen
  | cons t ts ih =>
    have happend : seen ++ t :: ts = seen ++ [t] ++ ts := by simp
    rw [firstDuplicate?, happend]
    cases hfind : seen.find? fun s => s.name == t.name with
    | some first =>
      have hname : first.name = t.name := by simpa using List.find?_some hfind
      refine ⟨fun h => absurd h (Option.some_ne_none _), fun h => ?_⟩
      rw [List.map_append] at h
      have hnew := (nodup_names_snoc.mp (List.Nodup.of_append_left h)).2
      exact absurd hname (hnew first (List.mem_of_find?_eq_some hfind))
    | none =>
      have hnew : ∀ s ∈ seen, s.name ≠ t.name := by simpa using hfind
      exact ih (nodup_names_snoc.mpr ⟨hseen, hnew⟩)

theorem firstDuplicate?_eq_some_iff {seen ts : List AssociatedTest} {first second : AssociatedTest}
    (hseen : (seen.map AssociatedTest.name).Nodup) :
    firstDuplicate? seen ts = some (first, second) ↔ ∃ before after, ts = before ++ second :: after ∧
      ((seen ++ before).map AssociatedTest.name).Nodup ∧ first ∈ seen ++ before ∧ first.name = second.name := by
  induction ts generalizing seen with
  | nil => simp [firstDuplicate?]
  | cons t ts ih =>
    rw [firstDuplicate?]
    cases hfind : seen.find? fun s => s.name == t.name with
    | some found =>
      have hname : found.name = t.name := by simpa using List.find?_some hfind
      have hfound := List.mem_of_find?_eq_some hfind
      constructor
      · intro h
        cases h
        exact ⟨[], ts, rfl, by simpa using hseen, by simpa using hfound, hname⟩
      · rintro ⟨before, after, hsplit, hnodup, hfirst, hsame⟩
        cases before with
        | nil =>
          cases hsplit
          rw [List.append_nil] at hfirst
          rw [List.inj_on_of_nodup_map hseen hfirst hfound (hsame.trans hname.symm)]
        | cons u before =>
          cases hsplit
          rw [← List.singleton_append, ← List.append_assoc, List.map_append] at hnodup
          have hnew := (nodup_names_snoc.mp (List.Nodup.of_append_left hnodup)).2
          exact absurd hname (hnew found hfound)
    | none =>
      have hnew : ∀ s ∈ seen, s.name ≠ t.name := by simpa using hfind
      rw [ih (nodup_names_snoc.mpr ⟨hseen, hnew⟩)]
      constructor
      · rintro ⟨before, after, rfl, hnodup, hfirst, hsame⟩
        rw [List.append_assoc, List.singleton_append] at hnodup hfirst
        exact ⟨t :: before, after, rfl, hnodup, hfirst, hsame⟩
      · rintro ⟨before, after, hsplit, hnodup, hfirst, hsame⟩
        cases before with
        | nil =>
          cases hsplit
          rw [List.append_nil] at hfirst
          exact absurd hsame (hnew first hfirst)
        | cons u before =>
          cases hsplit
          rw [← List.singleton_append, ← List.append_assoc] at hnodup hfirst
          exact ⟨before, after, rfl, hnodup, hfirst, hsame⟩

/-- The two tests that are found are the first repetition of a name. -/
theorem firstDuplicate?_iff {ts : List AssociatedTest} {first second : AssociatedTest} :
    firstDuplicate? [] ts = some (first, second) ↔ FirstRepeated AssociatedTest.name ts first second := by
  rw [firstDuplicate?_eq_some_iff (by simp)]
  constructor
  · rintro ⟨before, after, rfl, hnodup, hfirst, hsame⟩
    obtain ⟨front, between, rfl⟩ := List.append_of_mem hfirst
    exact ⟨front, between, after, by simp, hnodup, hsame⟩
  · rintro ⟨front, between, after, rfl, hnodup, hsame⟩
    exact ⟨front ++ first :: between, after, by simp, hnodup, by simp, hsame⟩

theorem map_eq_of_forall₂ {α β : Type} {R : α → β → Prop} {name : α → String} {name' : β → String}
    (hname : ∀ a b, R a b → name a = name' b) {xs : List α} {ys : List β} (h : List.Forall₂ R xs ys) :
    xs.map name = ys.map name' := by
  induction h with
  | nil => rfl
  | cons hab _ ih => rw [List.map_cons, List.map_cons, hname _ _ hab, ih]

/-- Lists that are related item by item have related repetitions, if related items have one name. -/
theorem FirstRepeated.of_forall₂ {α β : Type} {R : α → β → Prop} {name : α → String} {name' : β → String}
    (hname : ∀ a b, R a b → name a = name' b) {xs : List α} {ys : List β} (h : List.Forall₂ R xs ys) {a' b' : β}
    (hys : FirstRepeated name' ys a' b') : ∃ a b, FirstRepeated name xs a b ∧ R a a' ∧ R b b' := by
  obtain ⟨front, between, after, rfl, hnodup, hsame⟩ := hys
  rw [← List.cons_append, ← List.append_assoc] at h
  have hearlier := List.forall₂_take_append _ _ _ h
  have hlater := List.forall₂_drop_append _ _ _ h
  rw [← List.take_append_drop (front ++ a' :: between).length xs]
  generalize xs.take (front ++ a' :: between).length = earlier at hearlier ⊢
  generalize xs.drop (front ++ a' :: between).length = later at hlater ⊢
  rw [← map_eq_of_forall₂ hname hearlier] at hnodup
  obtain ⟨front', a, between', rfl, ha, -⟩ := forall₂_split hearlier
  cases hlater with
  | @cons b _ rest _ hb _ =>
    refine ⟨a, b, ⟨front', between', rest, by simp, hnodup, ?_⟩, ha, hb⟩
    rw [hname _ _ ha, hname _ _ hb, hsame]

/-! ## Reading an interface -/

/-- The tests of a class: the functions that stand directly in it and have the marker without a call. -/
def Class.tests (aliases : List String) (c : Class) : List Function :=
  (c.body.statements.filterMap Statement.function?).filter (Function.isTest aliases)

/-- The tests of a class keep their rules and have different names. -/
structure Class.WellFormed (aliases : List String) (c : Class) : Prop where
  tests : ∀ f ∈ c.tests aliases, f.WellFormed aliases
  names : ((c.tests aliases).map Function.name).Nodup

/-- Why a statement is refused as an interface. -/
inductive Source.Statement.RefusedAsInterface (aliases : List String) (args : List SyntaxTree) (item : Statement) :
    Fault Extent → Prop
  | arguments {first : SyntaxTree} {rest : List SyntaxTree} : args = first :: rest →
      RefusedAsInterface aliases args item (Violation.interfaceArguments.faultAt (.argument first) [])
  | noClass : args = [] → item.class? = none →
      RefusedAsInterface aliases args item (Violation.notInterface.fault item.extent? [])
  | test {c : Class} {before after : List Function} {f : Function} {w : Violation} {x : Subject} : args = [] →
      item.class? = some c → c.tests aliases = before ++ f :: after → (∀ g ∈ before, g.WellFormed aliases) →
      f.FirstBreach aliases TestRule.inOrder w x → RefusedAsInterface aliases args item (w.faultAt x [])
  | duplicate {c : Class} {first second : Function} : args = [] → item.class? = some c →
      (∀ f ∈ c.tests aliases, f.WellFormed aliases) → FirstRepeated Function.name (c.tests aliases) first second →
      RefusedAsInterface aliases args item ((Violation.duplicateTest second.name).faultAt (.name second.head.name)
        [("`" ++ second.name ++ "` first defined here", some (.name first.head.name))])

section
variable {aliases : List String} {c : Class}

theorem Class.tests_eq_filterMap (aliases : List String) (c : Class) :
    c.asBlock.2.body.filterMap (test? aliases) = c.tests aliases := by
  rw [Class.tests_eq, Class.tests, List.filter_filterMap]
  rfl

/-- The tests of a class can be read if they keep their rules. -/
theorem tests_isOk (hvalued : ∀ f ∈ c.tests aliases, ∀ e, ¬ f.head.Unvalued e) :
    (∃ tests, (c.tests aliases).mapM (AssociatedTest.read aliases) = .ok tests) ↔
      ∀ f ∈ c.tests aliases, f.WellFormed aliases :=
  Computation.mapM_isOk.trans (forall₂_congr fun f hf => (AssociatedTest.read_checks (hvalued f hf)).passes)

/-- The report for two tests of one name. -/
def duplicateFault (first second : FunctionHead) : Fault Extent :=
  (Violation.duplicateTest second.name.text).faultAt (.name second.name)
    [("`" ++ second.name.text ++ "` first defined here", some (.name first.name))]

/-- Reading a class is reading its tests, and then looking for two of one name. -/
theorem Interface.ofClass_eq (aliases : List String) (c : Class) :
    Interface.ofClass aliases c = ((c.tests aliases).mapM (AssociatedTest.read aliases) >>= fun tests =>
      (firstDuplicate? [] tests).elim (.ok (c.withoutTests aliases tests)) fun pair =>
        .error (.fault (duplicateFault pair.1.function.head pair.2.function.head))) := by
  rw [← Class.tests_eq_filterMap]
  unfold Interface.ofClass
  change (_ >>= _) = _
  refine congrArg (_ >>= ·) (funext fun tests => ?_)
  cases firstDuplicate? [] tests with
  | none => rfl
  | some pair => simp [duplicateFault, Violation.faultAt, violated, AssociatedTest.name, Function.name]

theorem accepted_of_tests {tests : List AssociatedTest}
    (h : (c.tests aliases).mapM (AssociatedTest.read aliases) = .ok tests) :
    List.Forall₂ (Accepted aliases) (c.tests aliases) tests :=
  (Computation.mapM_eq_ok h).imp fun _ _ => AssociatedTest.read_eq_ok

theorem Interface.ofClass_isOk (hvalued : ∀ f ∈ c.tests aliases, ∀ e, ¬ f.head.Unvalued e) :
    (∃ i, Interface.ofClass aliases c = .ok i) ↔ c.WellFormed aliases := by
  rw [Interface.ofClass_eq]
  constructor
  · rintro ⟨i, hi⟩
    obtain ⟨tests, htests, hi⟩ := Computation.except_bind_eq_ok hi
    refine ⟨(tests_isOk hvalued).mp ⟨tests, htests⟩, ?_⟩
    rw [map_eq_of_forall₂ (fun _ _ h => h.name.symm) (accepted_of_tests htests)]
    cases hdup : firstDuplicate? [] tests with
    | none => exact (firstDuplicate?_eq_none (by simp)).mp hdup
    | some pair =>
      rw [hdup] at hi
      cases hi
  · rintro ⟨hwell, hnodup⟩
    obtain ⟨tests, htests⟩ := (tests_isOk hvalued).mpr hwell
    rw [map_eq_of_forall₂ (fun _ _ h => h.name.symm) (accepted_of_tests htests)] at hnodup
    have hdup : firstDuplicate? [] tests = none := (firstDuplicate?_eq_none (by simp)).mpr hnodup
    refine ⟨c.withoutTests aliases tests, ?_⟩
    rw [htests]
    change (firstDuplicate? [] tests).elim _ _ = _
    rw [hdup]
    rfl

/-- A class is refused for the first of its tests that breaks a rule, or else for two tests of one name. -/
theorem Interface.ofClass_eq_error (hvalued : ∀ f ∈ c.tests aliases, ∀ e, ¬ f.head.Unvalued e) (e : Failure) :
    Interface.ofClass aliases c = .error e ↔
      (∃ before f after w x, c.tests aliases = before ++ f :: after ∧ (∀ g ∈ before, g.WellFormed aliases) ∧
        f.FirstBreach aliases TestRule.inOrder w x ∧ e = .fault (w.faultAt x [])) ∨
      (∀ f ∈ c.tests aliases, f.WellFormed aliases) ∧ ∃ first second,
        FirstRepeated Function.name (c.tests aliases) first second ∧
          e = .fault (duplicateFault first.head second.head) := by
  rw [Interface.ofClass_eq, Computation.except_bind_eq_error, Computation.mapM_eq_error]
  refine or_congr ?_ ?_
  · constructor
    · rintro ⟨before, f, after, hsplit, hbefore, hf⟩
      have hmem : ∀ g ∈ before ++ f :: after, g ∈ c.tests aliases := fun g hg => hsplit ▸ hg
      obtain ⟨w, x, hbreach, rfl⟩ := ((AssociatedTest.read_checks (hvalued f (hmem f (by simp)))).reports e).mp hf
      refine ⟨before, f, after, w, x, hsplit, fun g hg => ?_, hbreach, rfl⟩
      exact (AssociatedTest.read_checks (hvalued g (hmem g (by simp [hg])))).passes.mp (hbefore g hg)
    · rintro ⟨before, f, after, w, x, hsplit, hbefore, hbreach, rfl⟩
      have hmem : ∀ g ∈ before ++ f :: after, g ∈ c.tests aliases := fun g hg => hsplit ▸ hg
      refine ⟨before, f, after, hsplit, fun g hg => ?_, ?_⟩
      · exact (AssociatedTest.read_checks (hvalued g (hmem g (by simp [hg])))).passes.mpr (hbefore g hg)
      · exact ((AssociatedTest.read_checks (hvalued f (hmem f (by simp)))).reports _).mpr ⟨w, x, hbreach, rfl⟩
  · rw [← tests_isOk hvalued]
    constructor
    · rintro ⟨tests, htests, herror⟩
      cases hdup : firstDuplicate? [] tests with
      | none =>
        rw [hdup] at herror
        cases herror
      | some pair =>
        rw [hdup] at herror
        cases herror
        obtain ⟨first, second, hrepeated, hfirst, hsecond⟩ :=
          (firstDuplicate?_iff.mp hdup).of_forall₂ (fun _ _ h => h.name.symm) (accepted_of_tests htests)
        refine ⟨⟨tests, htests⟩, first, second, hrepeated, ?_⟩
        rw [hfirst.function, hsecond.function]
    · rintro ⟨⟨tests, htests⟩, first, second, hrepeated, rfl⟩
      obtain ⟨first', second', hrepeated', hfirst, hsecond⟩ :=
        hrepeated.of_forall₂ (fun _ _ h => h.name) (accepted_of_tests htests).flip
      refine ⟨tests, htests, ?_⟩
      rw [firstDuplicate?_iff.mpr hrepeated', Option.elim_some, hfirst.function, hsecond.function]

end

theorem expandInterface_noClass {aliases : List String} {item : Statement} (h : item.class? = none) :
    expandInterface aliases [] item = .error (.fault (Violation.notInterface.fault item.extent? [])) := by
  unfold expandInterface Interface.read
  rw [h]
  rfl

theorem expandInterface_class {aliases : List String} {item : Statement} {c : Class} (h : item.class? = some c) :
    expandInterface aliases [] item = (Interface.ofClass aliases c).map Interface.expanded := by
  unfold expandInterface Interface.read
  rw [h]
  change (Interface.ofClass aliases c >>= fun i => pure i.expanded) = _
  cases Interface.ofClass aliases c <;> rfl

theorem Computation.map_isOk {ε α β : Type} {g : α → β} {x : Except ε α} :
    (∃ b, x.map g = .ok b) ↔ ∃ a, x = .ok a := by
  cases x <;> simp [Except.map]

theorem Computation.map_eq_error {ε α β : Type} {g : α → β} {x : Except ε α} {e : ε} :
    x.map g = .error e ↔ x = .error e := by
  cases x <;> simp [Except.map]

/-- A statement is expanded as an interface if it is a class, its marker has no arguments, and its tests keep their
rules and have different names.  Any other statement is refused, with the report that `RefusedAsInterface` gives. -/
theorem expandInterface_accepts_exactly (aliases : List String) (args : List SyntaxTree) (item : Statement)
    (hvalued : ∀ c, item.class? = some c → ∀ f ∈ c.tests aliases, ∀ e, ¬ f.head.Unvalued e) :
    ((∃ c', expandInterface aliases args item = .ok c') ↔
      args = [] ∧ ∃ c, item.class? = some c ∧ c.WellFormed aliases) ∧
    ∀ e, expandInterface aliases args item = .error e ↔
      ∃ fault, e = .fault fault ∧ item.RefusedAsInterface aliases args fault := by
  cases args with
  | cons first rest =>
    have hread : expandInterface aliases (first :: rest) item =
        .error (.fault (Violation.interfaceArguments.faultAt (.argument first) [])) := by
      simp [expandInterface, Interface.read, violated, Violation.faultAt, bind, Except.bind]
    refine ⟨by simp [hread], fun e => ?_⟩
    rw [hread, Except.error.injEq]
    constructor
    · rintro rfl
      exact ⟨_, rfl, .arguments rfl⟩
    · rintro ⟨fault, rfl, hrefused⟩
      cases hrefused with
      | arguments h =>
        cases h
        rfl
      | noClass h => cases h
      | test h => cases h
      | duplicate h => cases h
  | nil =>
    cases hc : item.class? with
    | none =>
      rw [expandInterface_noClass hc]
      refine ⟨by simp, fun e => ?_⟩
      rw [Except.error.injEq]
      constructor
      · rintro rfl
        exact ⟨_, rfl, .noClass rfl hc⟩
      · rintro ⟨fault, rfl, hrefused⟩
        cases hrefused with
        | arguments h => cases h
        | noClass => rfl
        | test _ h => simp [hc] at h
        | duplicate _ h => simp [hc] at h
    | some c =>
      have hvalued := hvalued c hc
      rw [expandInterface_class hc, Computation.map_isOk, Interface.ofClass_isOk hvalued]
      refine ⟨by simp, fun e => ?_⟩
      rw [Computation.map_eq_error, Interface.ofClass_eq_error hvalued]
      constructor
      · rintro (⟨before, f, after, w, x, hsplit, hbefore, hbreach, rfl⟩ | ⟨hwell, first, second, hrepeated, rfl⟩)
        · exact ⟨_, rfl, .test rfl hc hsplit hbefore hbreach⟩
        · exact ⟨_, rfl, .duplicate rfl hc hwell hrepeated⟩
      · rintro ⟨fault, rfl, hrefused⟩
        cases hrefused with
        | arguments h => cases h
        | noClass _ h => simp [hc] at h
        | test _ h hsplit hbefore hbreach =>
          cases hc.symm.trans h
          exact .inl ⟨_, _, _, _, _, hsplit, hbefore, hbreach, rfl⟩
        | duplicate _ h hwell hrepeated =>
          cases hc.symm.trans h
          exact .inr ⟨hwell, _, _, hrepeated, rfl⟩

/-! ## Example -/

/-- A test that has to fail and is annotated with `'None'`. -/
def failingTest (name : String) : Function :=
  { emptyTest name with
    prelude := { decorators := [plainDecorator "test", plainDecorator "should_panic"] }
    head := { word := { kind := .name, text := "def", after := spaced }
              name := { kind := .name, text := name }
              rest := [.node .parameters [.ofOperator "(", .ofOperator ")"],
                .node .returns [.ofOperator "->", .leaf { kind := .string, text := "'None'" }], .ofOperator ":"] } }

/-- A test that is `async`. -/
def asyncTest (name : String) : Function :=
  { emptyTest name with
    head := { (emptyTest name).head with async := some { kind := .name, text := "async", after := spaced } } }

/-- Two tests of one name, and a test after them that breaks a rule. -/
def mixedClass : Class :=
  decoratedClass "final" "Shape" ["Protocol"]
    [(failingTest "area").statement, (failingTest "area").statement, (asyncTest "sides").statement]

/-- The rule that the last test breaks is reported, not the name that the first two share. -/
theorem expandInterface_accepts_exactly_mixed :
    (∀ c, mixedClass.statement.class? = some c → ∀ f ∈ c.tests [], ∀ e, ¬ f.head.Unvalued e) ∧
      expandInterface [] [] mixedClass.statement =
        .error (.fault (Violation.asyncTest.faultAt (.function (asyncTest "sides")) [])) := by
  have htests : mixedClass.tests [] =
      [failingTest "area", failingTest "area"] ++ asyncTest "sides" :: [] := rfl
  have hvalue : Literal.evaluate "'None'" = .ok (.text ("None".toList.map Char.toNat)) := rfl
  have hfailing : ∀ e, ¬ (failingTest "area").head.Unvalued e := by
    rintro e ⟨hint, t, hreturns, hcore, -, hnone⟩
    cases hreturns
    cases hcore
    cases hvalue.symm.trans hnone
  have hasync : ∀ e, ¬ (asyncTest "sides").head.Unvalued e := by
    rintro e ⟨hint, t, hreturns, -⟩
    cases hreturns
  have hwell : (failingTest "area").WellFormed [] := (AssociatedTest.read_checks hfailing).passes.mp ⟨_, rfl⟩
  have hvalued : ∀ c, mixedClass.statement.class? = some c → ∀ f ∈ c.tests [], ∀ e, ¬ f.head.Unvalued e := by
    intro c hc
    cases hc
    change ∀ f ∈ mixedClass.tests [], _
    rw [htests]
    simpa using ⟨hfailing, hasync⟩
  refine ⟨hvalued, ((expandInterface_accepts_exactly [] [] _ hvalued).2 _).mpr ⟨_, rfl, ?_⟩⟩
  refine .test rfl rfl htests (by simpa using hwell) ?_
  exact ⟨[], .notAsync, _, rfl, by simp, .async (by simp [asyncTest])⟩

end Conformance
