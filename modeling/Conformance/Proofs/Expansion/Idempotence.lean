import Conformance.Proofs.Expansion.FirstFailure
import Conformance.Proofs.Expansion.Locality

/-!
# Expansion is idempotent

No entry marker is left anywhere in an expanded module, and a module without entry markers is expanded to itself:

    (expandModule settings filename m).run p = (.ok m', q) → Plain settings.aliases (decoratorsOf m'.body)
    Plain settings.aliases (decoratorsOf m.body) → (expandModule settings filename m).run p = (.ok m, p)

The first of these needs that the walk rejects what it would not rewrite: a marked function, and a marked class in a
marked class.  So the parts that an expansion moves about were looked at before.
-/

namespace Conformance

open Source

/-! ## Decorators of a module -/

mutual

/-- The decorators of the definitions in a statement, at any depth. -/
def Source.Statement.decorators : Statement → List Decorator
  | .simple .. => []
  | .clause _ _ body => body.decorators
  | .ofFunction prelude _ body => prelude.decorators ++ body.decorators
  | .ofClass prelude _ body => prelude.decorators ++ body.decorators

/-- The decorators in a suite. -/
def Source.Suite.decorators : Suite → List Decorator
  | .inline .. => []
  | .block _ _ body _ => decoratorsOf body

/-- The decorators in some statements. -/
def decoratorsOf : List Statement → List Decorator
  | [] => []
  | st :: ss => st.decorators ++ decoratorsOf ss

end

theorem mem_decoratorsOf {d : Decorator} {ss : List Statement} :
    d ∈ decoratorsOf ss ↔ ∃ st ∈ ss, d ∈ st.decorators := by
  induction ss with
  | nil => simp [decoratorsOf]
  | cons st ss ih => simp [decoratorsOf, ih]

/-- None of the decorators is an entry marker. -/
def Plain (aliases : List String) (ds : List Decorator) : Prop :=
  ∀ d ∈ ds, isEntry aliases d = false

theorem plain_iff {aliases : List String} {ds : List Decorator} : Plain aliases ds ↔ entryDecorators aliases ds = [] := by
  simp [Plain, entryDecorators, List.filter_eq_nil_iff]

theorem plain_append {aliases : List String} {ds es : List Decorator} :
    Plain aliases (ds ++ es) ↔ Plain aliases ds ∧ Plain aliases es :=
  List.forall_mem_append

theorem Plain.nil (aliases : List String) : Plain aliases [] :=
  fun _ h => nomatch h

theorem Plain.subset {aliases : List String} {ds es : List Decorator} (h : Plain aliases es) (hsub : ds ⊆ es) :
    Plain aliases ds :=
  fun d hd => h d (hsub hd)

theorem plain_decoratorsOf {aliases : List String} {ss : List Statement} :
    Plain aliases (decoratorsOf ss) ↔ ∀ st ∈ ss, Plain aliases st.decorators := by
  constructor
  · intro h st hst d hd
    exact h d (mem_decoratorsOf.mpr ⟨st, hst, hd⟩)
  · intro h d hd
    obtain ⟨st, hst, hd⟩ := mem_decoratorsOf.mp hd
    exact h st hst d hd

/-! ## Without markers nothing happens -/

theorem enterFunction_of_plain {aliases : List String} {f : Function} (h : Plain aliases f.prelude.decorators) :
    enterFunction aliases f = .ok () := by
  rw [enterFunction, entry?_eq, plain_iff.mp h]
  rfl

theorem enterClass_of_plain {aliases : List String} {inside : Bool} {c : Class}
    (h : Plain aliases c.prelude.decorators) : enterClass aliases inside c = .ok none := by
  rw [enterClass_eq, plain_iff.mp h]

mutual

theorem expandStatement_of_plain (s : Surroundings) (inside : Bool) (st : Statement) (p : Progress)
    (h : Plain s.settings.aliases st.decorators) : expandStatement s inside st p = (.ok [st], p) := by
  match st with
  | .simple lead body stop => rfl
  | .clause lead head body =>
    have hbody := expandSuite_of_plain s inside body p h
    rw [expandStatement, Computation.bind_of_ok hbody]
    rfl
  | .ofFunction prelude head body =>
    rw [Statement.decorators, plain_append] at h
    have hbody := expandSuite_of_plain s inside body p h.2
    have henter : s.checking (head.extent? body) (enterFunction s.settings.aliases { prelude, head, body }) p =
        (.ok (), p) := by
      rw [enterFunction_of_plain h.1]
      rfl
    rw [expandStatement, Computation.bind_of_ok henter, Computation.bind_of_ok hbody]
    rfl
  | .ofClass prelude head body =>
    rw [Statement.decorators, plain_append] at h
    have hbody := expandSuite_of_plain s inside body p h.2
    have henter : s.checking (head.extent? body) (enterClass s.settings.aliases inside { prelude, head, body }) p =
        (.ok none, p) := by
      rw [enterClass_of_plain h.1]
      rfl
    rw [expandStatement, Computation.bind_of_ok henter]
    show (expandSuite s inside body >>= _) p = _
    rw [Computation.bind_of_ok hbody]
    rfl

theorem expandSuite_of_plain (s : Surroundings) (inside : Bool) (b : Suite) (p : Progress)
    (h : Plain s.settings.aliases b.decorators) : expandSuite s inside b p = (.ok b, p) := by
  match b with
  | .inline body stop => rfl
  | .block opening indent body footer =>
    have hbody := expandStatements_of_plain s inside body p h
    rw [expandSuite, Computation.bind_of_ok hbody]
    rfl

theorem expandStatements_of_plain (s : Surroundings) (inside : Bool) (ss : List Statement) (p : Progress)
    (h : Plain s.settings.aliases (decoratorsOf ss)) : expandStatements s inside ss p = (.ok ss, p) := by
  match ss with
  | [] => rfl
  | st :: ss =>
    rw [decoratorsOf, plain_append] at h
    have hfirst := expandStatement_of_plain s inside st p h.1
    have hrest := expandStatements_of_plain s inside ss p h.2
    rw [expandStatements, Computation.bind_of_ok hfirst, Computation.bind_of_ok hrest]
    rfl

end

/-- A module without entry markers is expanded to itself, and leaves no trace. -/
theorem expandModule_of_plain {settings : Settings} {m : Module} (h : Plain settings.aliases (decoratorsOf m.body))
    (filename : String) (p : Progress) : (expandModule settings filename m).run p = (.ok m, p) := by
  have hbody := expandStatements_of_plain (m.surroundings settings filename) false m.body p h
  exact Computation.bind_of_ok hbody

/-! ## No marker is left -/

/-- A function that may be entered is not marked. -/
theorem enterFunction_eq_ok {s : Surroundings} {f : Function} {u : Unit}
    (h : enterFunction s.settings.aliases f = .ok u) : Plain s.settings.aliases f.prelude.decorators := by
  have hends := Ends.enterFunction s f {}
  rw [h] at hends
  have hgood : ¬ (Visit.enterFunction f).Bad s := by
    rw [Visit.bad_iff, ← hends]
    exact Bool.false_ne_true
  rw [Visit.Bad, Function.isMarked_iff, not_not] at hgood
  exact plain_iff.mpr hgood

theorem expandStatement_function_plain {s : Surroundings} {inside : Bool} {prelude : Prelude} {head : FunctionHead}
    {body : Suite} {out : List Statement} {p q : Progress}
    (h : expandStatement s inside (.ofFunction prelude head body) p = (.ok out, q)) :
    Plain s.settings.aliases prelude.decorators := by
  rw [expandStatement] at h
  obtain ⟨u, p', hcheck, -⟩ := Computation.bind_eq_ok h
  exact enterFunction_eq_ok (f := { prelude, head, body }) (checking_eq_ok hcheck).1

/-- Taking the entry markers off leaves none. -/
theorem plain_unmarked (aliases : List String) (c : Class) : Plain aliases (c.unmarked aliases).prelude.decorators := by
  intro d hd
  rw [Class.unmarked, Marker.strip, List.partition_eq_filter_filter] at hd
  have hkept := (List.mem_filter.mp hd).2
  rw [Bool.not_eq_true'] at hkept
  exact hkept

theorem keptDecorators_subset (aliases : List String) (ds : List Decorator) : keptDecorators aliases ds ⊆ ds := by
  intro d hd
  rw [keptDecorators, Marker.strip, List.partition_eq_filter_filter] at hd
  exact (List.mem_filter.mp (List.mem_filter.mp hd).1).1

theorem decorators_withLead (lead : List Line) (st : Statement) : (st.withLead lead).decorators = st.decorators := by
  cases st <;> rfl

/-- A test that is moved has no decorators that it did not have. -/
theorem Accepted.decorators_subset {aliases : List String} {f : Function} {t : AssociatedTest}
    (h : Accepted aliases f t) : (Runner.nested t.function).decorators ⊆ f.statement.decorators := by
  rw [Runner.nested, decorators_withLead, h.function]
  exact List.append_subset.mpr ⟨List.Subset.trans (keptDecorators_subset aliases _) (List.subset_append_left _ _),
    List.subset_append_right _ _⟩

/-- The lines that run a test are no definitions. -/
theorem decorators_run (t : AssociatedTest) : decoratorsOf (Runner.run t) = [] := by
  unfold Runner.run
  cases t.kind <;> rfl

/-- The decorator of the hidden method is no entry marker under any module names. -/
theorem isEntry_classmethod (aliases : List String) : isEntry aliases (plainDecorator "classmethod") = false := by
  rw [Bool.eq_false_iff]
  intro h
  have hmarks := entryMarker_marks h
  obtain ⟨name, hname, hspelling⟩ := Marker.marks_iff.mp hmarks
  obtain rfl : "classmethod" = name := Option.some.inj hname
  have hword := Marker.finalSegment_of_mem_spellings hspelling
  revert hword
  cases entryMarker aliases (plainDecorator "classmethod") <;> decide +kernel

theorem decoratorsOf_append (ss ts : List Statement) :
    decoratorsOf (ss ++ ts) = decoratorsOf ss ++ decoratorsOf ts := by
  induction ss with
  | nil => rfl
  | cons st ss ih => rw [List.cons_append, decoratorsOf, ih, decoratorsOf, List.append_assoc]

/-- The hidden method has no entry marker if its tests had none. -/
theorem plain_method {aliases : List String} {fs : List Function} {tests : List AssociatedTest}
    (haccepted : List.Forall₂ (Accepted aliases) fs tests) (hplain : ∀ f ∈ fs, Plain aliases f.statement.decorators)
    (interface : String) : Plain aliases (Runner.method interface tests).decorators := by
  have hblocks : Plain aliases (decoratorsOf (tests.flatMap (Runner.block interface))) := by
    induction haccepted with
    | nil => exact Plain.nil aliases
    | @cons f t fs tests hft _ ih =>
      rw [List.flatMap_cons, decoratorsOf_append, plain_append]
      refine ⟨?_, ih fun g hg => hplain g (List.mem_cons_of_mem f hg)⟩
      rw [Runner.block, decoratorsOf_append, decorators_run, List.append_nil]
      have hnested := (hplain f List.mem_cons_self).subset hft.decorators_subset
      exact plain_append.mpr ⟨hnested, Plain.nil aliases⟩
  intro d hd
  rcases List.mem_append.mp hd with hd | hd
  · rw [List.mem_singleton.mp hd]
    exact isEntry_classmethod aliases
  · exact hblocks d hd

/-- The parts of a class that become an interface are plain if its body is. -/
theorem plain_asBlock {aliases : List String} {c : Class} (h : Plain aliases c.body.decorators) :
    ∀ st ∈ c.asBlock.2.body, Plain aliases st.decorators := by
  obtain ⟨prelude, head, body⟩ := c
  cases body with
  | inline line stop =>
    intro st hst
    rw [List.mem_singleton.mp hst, ownLine]
    exact Plain.nil aliases
  | block opening indent members footer => exact plain_decoratorsOf.mp h

theorem mem_of_test? {aliases : List String} {ss : List Statement} {f : Function} (h : f ∈ ss.filterMap (test? aliases)) :
    f.statement ∈ ss := by
  obtain ⟨st, hst, htest⟩ := List.mem_filterMap.mp h
  have hfunction := (Option.filter_eq_some_iff.mp htest).1
  cases st with
  | ofFunction prelude head body =>
    cases hfunction
    exact hst
  | _ => cases hfunction

theorem expandInterface_plain {aliases : List String} {args : List SyntaxTree} {c c' : Class}
    (hdecorators : Plain aliases c.prelude.decorators) (hbody : Plain aliases c.body.decorators)
    (h : expandInterface aliases args c.statement = .ok c') : Plain aliases c'.statement.decorators := by
  obtain ⟨-, i, hi, rfl⟩ := expandInterface_eq_ok h
  obtain ⟨tests, haccepted, -, rfl⟩ := Interface.ofClass_eq_ok hi
  have hmembers := plain_asBlock hbody
  have hmethod := plain_method haccepted (fun f hf => hmembers _ (mem_of_test? hf)) c.asBlock.1.name.text
  refine plain_append.mpr ⟨hdecorators, plain_decoratorsOf.mpr fun st hst => ?_⟩
  rcases List.mem_append.mp hst with hst | hst
  · exact hmembers st (List.mem_filter.mp hst).1
  · rw [List.mem_singleton.mp hst]
    exact hmethod

/-- An implementation keeps its class but for the marker that runs its tests in place. -/
theorem read_definition {aliases typeVariables : List String} {args : List SyntaxTree} {c : Class}
    {i : Implementation} (h : Implementation.read aliases typeVariables args c.statement = .ok i) :
    i.definition.body = c.body ∧ i.definition.prelude.decorators ⊆ c.prelude.decorators := by
  obtain ⟨listed, -, h⟩ := Computation.except_bind_eq_ok (h : (instantiations args >>= _) = _)
  obtain ⟨ancestry, -, h⟩ := Computation.except_bind_eq_ok h
  cases hinterface : ancestry.interface with
  | none =>
    rw [hinterface] at h
    cases h
  | some interface =>
    rw [hinterface] at h
    obtain ⟨insts, -, h⟩ := Computation.except_bind_eq_ok h
    cases h
    refine ⟨rfl, fun d hd => ?_⟩
    have hkept : d ∈ (Marker.strip aliases [.runInline] c.prelude.decorators).1 := hd
    rw [Marker.strip, List.partition_eq_filter_filter] at hkept
    exact (List.mem_filter.mp hkept).1

/-- The functions of an implementation and their calls have no decorators. -/
theorem decoratorsOf_expanded (discovery : String) (next : Nat) (i : Implementation) :
    decoratorsOf (i.expanded discovery next) = i.definition.statement.decorators := by
  have hfunctions : ∀ (names : List String) (insts : List Instantiation),
      decoratorsOf (List.zipWith Implementation.functionFor names insts) = [] := by
    intro names
    induction names with
    | nil => intro insts; rfl
    | cons name names ih =>
      intro insts
      cases insts with
      | nil => rfl
      | cons inst insts => exact ih insts
  have hcalls : ∀ names : List String, decoratorsOf (Implementation.calls names) = [] := by
    intro names
    cases names with
    | nil => rfl
    | cons name names =>
      induction names with
      | nil => rfl
      | cons name' names ih => exact ih
  have hinline : ∀ names : List String, decoratorsOf (if i.inline then Implementation.calls names else []) = [] := by
    intro names
    cases i.inline with
    | true => exact hcalls names
    | false => rfl
  unfold Implementation.expanded
  rw [decoratorsOf_append, decoratorsOf_append, hfunctions, hinline, List.append_nil, List.append_nil]
  exact List.append_nil _

/-- Whatever a marked class is replaced by is plain, if its body is. -/
theorem expandClass_plain {s : Surroundings} {c : Class} {d : Decorator} {out : List Statement} {p q : Progress}
    (hbody : Plain s.settings.aliases c.body.decorators)
    (h : expandClass s (entryMarker s.settings.aliases d) d c p = (.ok out, q)) :
    Plain s.settings.aliases (decoratorsOf out) := by
  have hdecorators := plain_unmarked s.settings.aliases c
  by_cases hi : Marker.interface.marks s.settings.aliases d = true
  · rw [entryMarker, if_pos hi] at h
    obtain ⟨c', hc', rfl, -, -, -⟩ := expandClass_interface_cases h
    exact plain_append.mpr ⟨expandInterface_plain hdecorators hbody hc', Plain.nil _⟩
  · rw [entryMarker, if_neg hi] at h
    obtain ⟨i, hread, rfl, -, -, -⟩ := expandClass_implementation_cases h
    obtain ⟨hsame, hsub⟩ := read_definition hread
    rw [decoratorsOf_expanded, Class.statement, Statement.decorators, hsame]
    exact plain_append.mpr ⟨hdecorators.subset hsub, hbody⟩

mutual

/-- No entry marker is left in what a statement is expanded to. -/
theorem expandStatement_plain {s : Surroundings} {inside : Bool} {st : Statement} {out : List Statement}
    {p q : Progress} (h : expandStatement s inside st p = (.ok out, q)) :
    Plain s.settings.aliases (decoratorsOf out) := by
  match st with
  | .simple lead body stop =>
    cases h
    exact Plain.nil _
  | .clause lead head body =>
    obtain ⟨body', hbody, rfl⟩ := expandStatement_clause_cases h
    exact plain_append.mpr ⟨expandSuite_plain hbody, Plain.nil _⟩
  | .ofFunction prelude head body =>
    obtain ⟨body', hbody, rfl⟩ := expandStatement_function_cases h
    have hdecorators := expandStatement_function_plain h
    exact plain_append.mpr ⟨plain_append.mpr ⟨hdecorators, expandSuite_plain hbody⟩, Plain.nil _⟩
  | .ofClass prelude head body =>
    rcases expandStatement_class_cases h with ⟨hd, body', hbody, rfl⟩ | ⟨d, body', r, hd, -, hbody, hclass⟩
    · exact plain_append.mpr ⟨plain_append.mpr ⟨plain_iff.mpr hd, expandSuite_plain hbody⟩, Plain.nil _⟩
    · have hplain := expandSuite_plain hbody
      obtain ⟨rfl, -, -⟩ := expandSuite_inside hbody
      exact expandClass_plain hplain hclass

theorem expandSuite_plain {s : Surroundings} {inside : Bool} {b b' : Suite} {p q : Progress}
    (h : expandSuite s inside b p = (.ok b', q)) : Plain s.settings.aliases b'.decorators := by
  match b with
  | .inline body stop =>
    cases h
    exact Plain.nil _
  | .block opening indent body footer =>
    obtain ⟨body', hbody, rfl⟩ := expandSuite_block_cases h
    exact expandStatements_plain hbody

theorem expandStatements_plain {s : Surroundings} {inside : Bool} {ss out : List Statement} {p q : Progress}
    (h : expandStatements s inside ss p = (.ok out, q)) : Plain s.settings.aliases (decoratorsOf out) := by
  match ss with
  | [] =>
    cases h
    exact Plain.nil _
  | st :: ss =>
    obtain ⟨first, rest, r, hfirst, hrest, rfl⟩ := expandStatements_cons_cases h
    rw [decoratorsOf_append]
    exact plain_append.mpr ⟨expandStatement_plain hfirst, expandStatements_plain hrest⟩

end

theorem expandModule_plain {settings : Settings} {filename : String} {m m' : Module} {p q : Progress}
    (h : (expandModule settings filename m).run p = (.ok m', q)) :
    Plain settings.aliases (decoratorsOf m'.body) := by
  obtain ⟨body', q', hbody, hout⟩ := Computation.bind_eq_ok h
  cases hout
  exact expandStatements_plain hbody

/-- What an expansion gives is expanded to itself: nothing is reported, and the counter stays where it is. -/
theorem expandModule_idempotent (settings : Settings) (filename filename' : String) (m : Module) {m' : Module}
    {p q : Progress} (h : (expandModule settings filename m).run p = (.ok m', q)) (r : Progress) :
    (expandModule settings filename' m').run r = (.ok m', r) :=
  expandModule_of_plain (expandModule_plain h) filename' r

/-- The interface and the implementation under a condition are expanded once and for all. -/
theorem expandModule_idempotent_conditional :
    ∃ m' q, (expandModule {} "<string>" conditionalModule).run {} = (.ok m', q) ∧
      (expandModule {} "<string>" m').run { counter := q.counter } = (.ok m', { counter := q.counter }) :=
  ⟨_, _, rfl, expandModule_idempotent {} "<string>" "<string>" conditionalModule (p := {}) rfl _⟩

end Conformance
