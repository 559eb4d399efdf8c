import Conformance.Proofs.Expansion.Respelling

/-!
# The spelling of markers does not matter

Respelled modules are expanded to the same module, or the expansion of both fails for the same reason.  A test is read
alike however its markers are spelled, so an interface is; an implementation has its markers taken off before anything
is looked at but their arguments.  The walk goes through both modules in step, by recursion on the respelling.
-/

namespace Conformance

open Source

theorem forall₂_map_eq_iff {α β : Type} {f : α → β} {xs ys : List α} :
    List.Forall₂ (fun x y => f x = f y) xs ys ↔ xs.map f = ys.map f := by
  rw [← List.forall₂_eq_eq_eq, List.forall₂_map_left_iff, List.forall₂_map_right_iff]

/-! ## Tests -/

/-- The functions are the same but for places and the spelling of the markers of a test. -/
structure Function.Respells (aliases : List String) (f f' : Function) : Prop where
  prelude : f.prelude.Respells aliases testMarkers f'.prelude
  head : f.head.unplaced = f'.head.unplaced
  body : f.body.unplaced = f'.body.unplaced

namespace Function.Respells

variable {aliases : List String} {f f' : Function}

theorem name_eq (h : f.Respells aliases f') : f.name = f'.name := by
  have hname : f.head.unplaced.name.text = f'.head.unplaced.name.text := by rw [h.head]
  exact hname

/-- The decorators that are one of the markers, in step. -/
theorem marked (h : f.Respells aliases f') (m : Marker) :
    List.Forall₂ (Decorator.Respells aliases testMarkers) (f.prelude.decorators.filter (m.marks aliases))
      (f'.prelude.decorators.filter (m.marks aliases)) :=
  (filter_forall₂ h.prelude.decorators fun _ _ hd => hd.marks_eq m).imp fun _ _ hd => hd.1

/-- The text that a test has to raise is taken from the arguments of its marker. -/
theorem shouldPanic (h : f.Respells aliases f') :
    Alike (fun o o' => o.map (Option.map SyntaxTree.unplaced) = o'.map (Option.map SyntaxTree.unplaced))
      (Conformance.shouldPanic aliases f) (Conformance.shouldPanic aliases f') := by
  have hmarked := h.marked .shouldPanic
  rw [shouldPanic_eq, shouldPanic_eq]
  revert hmarked
  generalize f.prelude.decorators.filter (Marker.shouldPanic.marks aliases) = ds
  generalize f'.prelude.decorators.filter (Marker.shouldPanic.marks aliases) = ds'
  intro hmarked
  cases hmarked with
  | nil => exact .ok rfl
  | @cons d d' ds ds' hd hrest =>
    cases hrest with
    | nil =>
      have hexpected : (expectedText? d.expression.arguments).map (Option.map SyntaxTree.unplaced) =
          (expectedText? d'.expression.arguments).map (Option.map SyntaxTree.unplaced) := by
        rw [← expectedText?_unplaced, hd.arguments_eq, expectedText?_unplaced]
      revert hexpected
      simp only
      rcases expectedText? d.expression.arguments with _ | expected <;>
        rcases expectedText? d'.expression.arguments with _ | expected' <;> intro hexpected
      · exact .violated rfl
      · cases hexpected
      · cases hexpected
      · exact .ok hexpected
    | cons _ _ => exact .violated rfl

/-- The requirements are arguments of markers. -/
theorem requirementsOf (h : f.Respells aliases f') :
    Alike (fun rs rs' => rs.map SyntaxTree.unplaced = rs'.map SyntaxTree.unplaced)
      (Conformance.requirementsOf aliases f) (Conformance.requirementsOf aliases f') := by
  have hargs : ∀ {ds ds' : List Decorator}, List.Forall₂ (Decorator.Respells aliases testMarkers) ds ds' →
      (ds.flatMap fun d => d.expression.arguments).map SyntaxTree.unplaced =
        (ds'.flatMap fun d => d.expression.arguments).map SyntaxTree.unplaced := by
    intro ds ds' hds
    induction hds with
    | nil => rfl
    | cons hd _ ih => rw [List.flatMap_cons, List.flatMap_cons, List.map_append, List.map_append, hd.arguments_eq, ih]
  exact .of_natural (Alike.mapM_natural requirement_unplaced) (hargs (h.marked .requires))

theorem testKind (h : f.Respells aliases f') :
    Alike (fun k k' => k.unplaced = k'.unplaced) (Conformance.testKind aliases f)
      (Conformance.testKind aliases f') := by
  have hresult : Alike (fun o o' => o.map SyntaxTree.unplaced = o'.map SyntaxTree.unplaced)
      ((resultType f.head).mapError Failure.literal) ((resultType f'.head).mapError Failure.literal) := by
    have hmap : (resultType f.head).map (Option.map SyntaxTree.unplaced) =
        (resultType f'.head).map (Option.map SyntaxTree.unplaced) := by
      rw [← resultType_unplaced, h.head, resultType_unplaced]
    revert hmap
    rcases resultType f.head with e | o <;> rcases resultType f'.head with e' | o' <;> intro hmap
    · exact .error (congrArg Except.error (Except.error.inj hmap))
    · cases hmap
    · cases hmap
    · exact .ok (Except.ok.inj hmap)
  refine hresult.bind fun result result' _ _ hresult => h.shouldPanic.bind fun panic panic' _ _ hpanic => ?_
  match panic, panic', hpanic, result, result', hresult with
  | none, none, _, none, none, _ => exact .ok rfl
  | none, none, _, some _, some _, hresult => exact .ok (congrArg TestKind.returnsResult (Option.some.inj hresult))
  | some _, some _, hpanic, none, none, _ => exact .ok (congrArg TestKind.shouldPanic (Option.some.inj hpanic))
  | some _, some _, _, some _, some _, _ => exact .violated rfl

/-- The decorators that stay are the same but for places. -/
theorem keptDecorators (h : f.Respells aliases f') :
    (Conformance.keptDecorators aliases f.prelude.decorators).map Decorator.unplaced =
      (Conformance.keptDecorators aliases f'.prelude.decorators).map Decorator.unplaced := by
  have hstripped : List.Forall₂ (Decorator.Respells aliases [])
      (Marker.strip aliases testMarkers f.prelude.decorators).1
      (Marker.strip aliases testMarkers f'.prelude.decorators).1 :=
    strip_respelled h.prelude.decorators fun m hm => .inr hm
  refine map_unplaced_eq ((filter_forall₂ hstripped fun d d' hd => ?_).imp fun _ _ hd => hd.1)
  rw [hd.marksBinding_eq]

/-- A test is read alike however its markers are spelled. -/
theorem read (h : f.Respells aliases f') :
    Alike (fun t t' => t.unplaced = t'.unplaced) (AssociatedTest.read aliases f) (AssociatedTest.read aliases f') := by
  have hasync : f.head.async.isSome = f'.head.async.isSome := by
    have hhead : f.head.unplaced.async.isSome = f'.head.unplaced.async.isSome := by rw [h.head]
    simpa [FunctionHead.unplaced] using hhead
  have habstract : f.prelude.decorators.any marksAbstract = f'.prelude.decorators.any marksAbstract :=
    any_eq_of_forall₂ h.prelude.decorators fun _ _ hd => hd.marksAbstract_eq
  have hstub : isStub f.body = isStub f'.body := by rw [← isStub_unplaced, h.body, isStub_unplaced]
  have htakes : takesType? f.head = takesType? f'.head := by rw [← takesType?_unplaced, h.head, takesType?_unplaced]
  unfold AssociatedTest.read
  refine .rule (by rw [hasync]) (.rule (by rw [h.name_eq]) (.rule (by rw [habstract, hstub]) ?_))
  rw [htakes]
  cases takesType? f'.head with
  | none =>
    rw [h.name_eq]
    exact .violated rfl
  | some takesType =>
    refine h.testKind.bind fun kind kind' _ _ hkind => h.requirementsOf.bind fun rs rs' _ _ hrs => .ok ?_
    simp only [AssociatedTest.unplaced, Function.unplaced, Prelude.unplaced, hkind, hrs, h.keptDecorators, h.head,
      h.body, h.prelude.lead, h.prelude.gap]

end Function.Respells

/-! ## Interfaces -/

section

variable {aliases : List String}

/-- A respelled member of an interface is a respelled test, or no test and the same but for places. -/
theorem test?_respelled {st st' : Statement} (h : st.Respells aliases true st') (hplain : Plain aliases st.decorators) :
    (∃ f f', test? aliases st = some f ∧ test? aliases st' = some f' ∧ f.Respells aliases f') ∨
      (test? aliases st = none ∧ test? aliases st' = none ∧ st.unplaced = st'.unplaced) := by
  cases h with
  | simple hbody =>
    exact .inr ⟨rfl, rfl, Statement.Respells.unplaced_eq (.simple hbody) hplain⟩
  | clause hhead hbody =>
    exact .inr ⟨rfl, rfl, Statement.Respells.unplaced_eq (.clause hhead hbody) hplain⟩
  | ofClass hprelude hhead hbody =>
    exact .inr ⟨rfl, rfl, Statement.Respells.unplaced_eq (.ofClass hprelude hhead hbody) hplain⟩
  | @ofFunction _ prelude prelude' head head' body body' hprelude hhead hbody =>
    have htest : prelude.decorators.any (Marker.test.marksBare aliases) =
        prelude'.decorators.any (Marker.test.marksBare aliases) :=
      any_eq_of_forall₂ hprelude.decorators fun _ _ hd => hd.marksBare_eq .test
    obtain ⟨hdecorators, hinner⟩ := plain_append.mp hplain
    cases hbare : prelude.decorators.any (Marker.test.marksBare aliases) with
    | true =>
      have hconsumed : consumedOfFunction aliases true prelude.decorators = entryMarkers ++ testMarkers := by
        simp [consumedOfFunction, hbare]
      have hkept : List.Forall₂ (Decorator.Respells aliases testMarkers) prelude.decorators prelude'.decorators :=
        plain_respelled hprelude.decorators hdecorators fun m hm => (List.mem_append.mp (hconsumed ▸ hm)).symm
      refine .inl ⟨{ prelude, head, body }, { prelude := prelude', head := head', body := body' }, ?_, ?_,
        ⟨hprelude.lead, hprelude.gap, hkept⟩, hhead, hbody.unplaced_eq hinner⟩
      · exact Option.filter_eq_some_iff.mpr ⟨rfl, hbare⟩
      · exact Option.filter_eq_some_iff.mpr ⟨rfl, htest.symm.trans hbare⟩
    | false =>
      have hconsumed : consumedOfFunction aliases true prelude.decorators =
          consumedOfFunction aliases false prelude.decorators := by
        simp [consumedOfFunction, hbare]
      refine .inr ⟨?_, ?_, Statement.Respells.unplaced_eq (.ofFunction (hconsumed ▸ hprelude) hhead hbody) hplain⟩
      · exact Option.filter_eq_none_iff.mpr fun f hf => by
          cases hf
          exact Bool.eq_false_iff.mp hbare
      · exact Option.filter_eq_none_iff.mpr fun f hf => by
          cases hf
          exact Bool.eq_false_iff.mp (htest.symm.trans hbare)

/-- The tests of an interface, in step. -/
theorem tests_respelled {ss ss' : List Statement} (h : StatementsRespell aliases true ss ss')
    (hplain : Plain aliases (decoratorsOf ss)) :
    List.Forall₂ (Function.Respells aliases) (ss.filterMap (test? aliases)) (ss'.filterMap (test? aliases)) := by
  match h with
  | .nil => exact .nil
  | .cons hfirst hrest =>
    obtain ⟨hplain, hplain'⟩ := plain_append.mp hplain
    have ih := tests_respelled hrest hplain'
    rcases test?_respelled hfirst hplain with ⟨f, f', hf, hf', hff'⟩ | ⟨hf, hf', -⟩
    · rw [List.filterMap_cons_some hf, List.filterMap_cons_some hf']
      exact .cons hff' ih
    · rw [List.filterMap_cons_none hf, List.filterMap_cons_none hf']
      exact ih

/-- The other members of an interface are the same but for places. -/
theorem items_respelled {ss ss' : List Statement} (h : StatementsRespell aliases true ss ss')
    (hplain : Plain aliases (decoratorsOf ss)) :
    (ss.filter fun st => (test? aliases st).isNone).map Statement.unplaced =
      (ss'.filter fun st => (test? aliases st).isNone).map Statement.unplaced := by
  match h with
  | .nil => rfl
  | .cons hfirst hrest =>
    obtain ⟨hplain, hplain'⟩ := plain_append.mp hplain
    have ih := items_respelled hrest hplain'
    rcases test?_respelled hfirst hplain with ⟨f, f', hf, hf', -⟩ | ⟨hf, hf', hsame⟩
    · rw [List.filter_cons_of_neg (by simp [hf]), List.filter_cons_of_neg (by simp [hf']), ih]
    · rw [List.filter_cons_of_pos (by simp [hf]), List.filter_cons_of_pos (by simp [hf']), List.map_cons, List.map_cons,
        hsame, ih]

end

section

variable {aliases : List String} {c c' : Class} {args args' : List SyntaxTree}

/-- Respelled bodies become respelled blocks. -/
theorem asBlock_respelled (hhead : c.head.unplaced = c'.head.unplaced) (hbody : c.body.Respells aliases true c'.body) :
    c.asBlock.1.unplaced = c'.asBlock.1.unplaced ∧
      c.asBlock.2.opening = c'.asBlock.2.opening ∧ c.asBlock.2.indent = c'.asBlock.2.indent ∧
      c.asBlock.2.footer = c'.asBlock.2.footer ∧
      StatementsRespell aliases true c.asBlock.2.body c'.asBlock.2.body := by
  obtain ⟨prelude, head, body⟩ := c
  obtain ⟨prelude', head', body'⟩ := c'
  cases hbody with
  | @inline _ line line' stop hline =>
    have hclass : (Class.mk {} head (.inline line stop)).unplaced =
        (Class.mk {} head' (.inline line' stop)).unplaced := by
      simp only [Class.unplaced, Suite.unplaced, show head.unplaced = head'.unplaced from hhead, hline]
    have hblock := congrArg Class.asBlock hclass
    rw [Class.asBlock_unplaced, Class.asBlock_unplaced] at hblock
    have hown : (ownLine line).unplaced = (ownLine line').unplaced := by
      rw [← ownLine_unplaced, hline, ownLine_unplaced]
    exact ⟨(Prod.mk.inj hblock).1, rfl, rfl, rfl, .cons (.simple (Statement.simple.inj hown).2.1) .nil⟩
  | block hbody => exact ⟨hhead, rfl, rfl, rfl, hbody⟩

/-- An interface is read alike however the markers of its tests are spelled. -/
theorem ofClass_respelled (hprelude : c.prelude.unplaced = c'.prelude.unplaced)
    (hhead : c.head.unplaced = c'.head.unplaced) (hbody : c.body.Respells aliases true c'.body)
    (hplain : Plain aliases c.body.decorators) :
    Alike (fun i i' => i.unplaced = i'.unplaced) (Interface.ofClass aliases c) (Interface.ofClass aliases c') := by
  obtain ⟨hblockHead, hopening, hindent, hfooter, hmembers⟩ := asBlock_respelled hhead hbody
  have hplain : Plain aliases (decoratorsOf c.asBlock.2.body) := plain_decoratorsOf.mpr (plain_asBlock hplain)
  have htests := Alike.mapM ((tests_respelled hmembers hplain).imp fun _ _ hff' => hff'.read)
  have hitems := items_respelled hmembers hplain
  unfold Interface.ofClass
  refine htests.bind fun tests tests' _ _ htests => ?_
  have htests : tests.map AssociatedTest.unplaced = tests'.map AssociatedTest.unplaced := forall₂_map_eq_iff.mp htests
  have hduplicate : (firstDuplicate? [] tests).map (Prod.map AssociatedTest.unplaced AssociatedTest.unplaced) =
      (firstDuplicate? [] tests').map (Prod.map AssociatedTest.unplaced AssociatedTest.unplaced) := by
    rw [← firstDuplicate?_unplaced, List.map_nil, htests]
    exact firstDuplicate?_unplaced [] tests'
  -- The names of the tests are the same, so both have a repeated one or neither has.
  rcases hfirst : firstDuplicate? [] tests with _ | ⟨first, second⟩ <;>
    rcases hfirst' : firstDuplicate? [] tests' with _ | ⟨first', second'⟩ <;> rw [hfirst, hfirst'] at hduplicate
  · refine .ok (show (c.withoutTests aliases tests).unplaced = (c'.withoutTests aliases tests').unplaced from ?_)
    simp only [Class.withoutTests, Interface.unplaced, Block.unplaced, hprelude, hblockHead, hopening, hindent, hfooter,
      hitems, htests]
  · cases hduplicate
  · cases hduplicate
  · obtain ⟨-, hsecond⟩ := Prod.mk.inj (Option.some.inj hduplicate)
    have hname : second.unplaced.name = second'.unplaced.name := congrArg AssociatedTest.name hsecond
    change second.name = second'.name at hname
    exact .violated_congr (congrArg Violation.duplicateTest hname) (by simp only [hname, List.map_cons, List.map_nil])

theorem expandInterface_respelled (hargs : args.map SyntaxTree.unplaced = args'.map SyntaxTree.unplaced)
    (hprelude : c.prelude.unplaced = c'.prelude.unplaced) (hhead : c.head.unplaced = c'.head.unplaced)
    (hbody : c.body.Respells aliases true c'.body) (hplain : Plain aliases c.body.decorators) :
    Alike (fun k k' => k.unplaced = k'.unplaced) (expandInterface aliases args c.statement)
      (expandInterface aliases args' c'.statement) := by
  match args, args', hargs with
  | [], [], _ =>
    refine (ofClass_respelled hprelude hhead hbody hplain).bind fun i i' _ _ hi => .ok ?_
    rw [← Interface.expanded_unplaced, hi, Interface.expanded_unplaced]
  | _ :: _, _ :: _, _ => exact .violated rfl

end

/-! ## Implementations -/

/-- The name of a class stands in its head. -/
theorem Class.name_eq {c c' : Class} (h : c.head.unplaced = c'.head.unplaced) : c.name = c'.name := by
  have hname : c.head.unplaced.name.text = c'.head.unplaced.name.text := by rw [h]
  exact hname

/-- The class that is tested for some instantiations, without the markers of an implementation. -/
def Class.testedFor (c : Class) (aliases : List String) (is : List Instantiation) : Implementation :=
  { definition :=
      { c with prelude := { c.prelude with decorators := (Marker.strip aliases [.runInline] c.prelude.decorators).1 } }
    instantiations := is
    inline := !(Marker.strip aliases [.runInline] c.prelude.decorators).2.isEmpty }

/-- An implementation is read alike however its markers are spelled. -/
theorem read_respelled {aliases : List String} {c c' : Class} {args args' : List SyntaxTree}
    (typeVariables : List String) (hargs : args.map SyntaxTree.unplaced = args'.map SyntaxTree.unplaced)
    (hprelude : c.prelude.Respells aliases [.runInline] c'.prelude) (hhead : c.head.unplaced = c'.head.unplaced)
    (hbody : c.body.unplaced = c'.body.unplaced) :
    Alike (fun i i' => i.unplaced = i'.unplaced) (Implementation.read aliases typeVariables args c.statement)
      (Implementation.read aliases typeVariables args' c'.statement) := by
  have hname := Class.name_eq hhead
  have hkept : List.Forall₂ (Decorator.Respells aliases [])
      (Marker.strip aliases [.runInline] c.prelude.decorators).1
      (Marker.strip aliases [.runInline] c'.prelude.decorators).1 :=
    strip_respelled hprelude.decorators fun m hm => .inr hm
  have hremoved := strip_removed_respelled hprelude.decorators [.runInline]
  refine (Alike.of_natural instantiations_unplaced hargs).bind fun listed listed' _ _ hlisted => ?_
  refine (Alike.of_natural (Ancestry.ofHead_unplaced typeVariables) hhead).bind fun bases bases' _ _ hbases => ?_
  obtain ⟨interface, parameters⟩ := bases
  obtain ⟨interface', parameters'⟩ := bases'
  obtain ⟨hinterface, rfl⟩ := Ancestry.mk.inj hbases
  match interface, interface', hinterface with
  | none, none, _ => exact .violated rfl
  | some interface, some interface', hinterface =>
    refine (resolve_alike hname hlisted (Option.some.inj hinterface) parameters).bind fun is is' _ _ his => .ok ?_
    change (c.testedFor aliases is).unplaced = (c'.testedFor aliases is').unplaced
    simp only [Class.testedFor, Implementation.unplaced, Class.unplaced, Prelude.unplaced, his, hremoved,
      map_unplaced_eq hkept, hhead, hbody, hprelude.lead, hprelude.gap]

/-! ## Definitions -/

section

variable {aliases : List String} {consumed : List Marker}

/-- The one entry marker of a definition, if there is any, is the same marker however it is spelled. -/
theorem entry?_respelled {ds ds' : List Decorator} (h : List.Forall₂ (Decorator.Respells aliases consumed) ds ds') :
    Alike (Option.Rel fun e e' => e.1 = e'.1 ∧ e.2.Respells aliases consumed e'.2) ( entry? aliases ds)
      ( entry? aliases ds') := by
  have hentries := entryDecorators_respelled h
  rw [ entry?_eq, entry?_eq]
  revert hentries
  generalize entryDecorators aliases ds = es
  generalize entryDecorators aliases ds' = es'
  intro hentries
  cases hentries with
  | nil => exact .ok .none
  | cons hd hrest =>
    cases hrest with
    | nil => exact .ok (.some ⟨hd.entryMarker_eq, hd⟩)
    | cons _ _ => exact .violated rfl

/-- A class is entered alike however its entry marker is spelled. -/
theorem enterClass_respelled {c c' : Class}
    (h : List.Forall₂ (Decorator.Respells aliases consumed) c.prelude.decorators c'.prelude.decorators)
    (inside : Bool) :
    Alike (Option.Rel fun e e' => e.1 = e'.1 ∧ e.2.Respells aliases consumed e'.2) (enterClass aliases inside c)
      (enterClass aliases inside c') := by
  refine ( entry?_respelled h).bind fun o o' _ _ hentry => ?_
  cases hentry with
  | none => exact .ok .none
  | @some e e' he =>
    obtain ⟨m, d⟩ := e
    obtain ⟨m', d'⟩ := e'
    obtain ⟨rfl, hd⟩ := he
    cases inside with
    | true => exact .violated rfl
    | false => exact .ok (.some ⟨rfl, hd⟩)

/-- A function is entered alike however its entry marker is spelled: it must not have one. -/
theorem enterFunction_respelled {f f' : Function}
    (h : List.Forall₂ (Decorator.Respells aliases consumed) f.prelude.decorators f'.prelude.decorators) :
    Alike (fun _ _ => True) (enterFunction aliases f) (enterFunction aliases f') := by
  refine ( entry?_respelled h).bind fun o o' _ _ hentry => ?_
  cases hentry with
  | none => exact .ok trivial
  | @some e e' he =>
    obtain ⟨m, d⟩ := e
    obtain ⟨m', d'⟩ := e'
    obtain ⟨rfl, hd⟩ := he
    cases m with
    | interface =>
      -- Arguments are refused before what the marker stands on is looked at.
      have hargs := hd.arguments_eq
      revert hargs
      simp only
      generalize d.expression.arguments = args
      generalize d'.expression.arguments = args'
      intro hargs
      match args, args', hargs with
      | [], [], _ => exact .violated rfl
      | _ :: _, _ :: _, _ => exact .violated rfl
    | _ => exact .violated rfl

end

/-- The class without its entry marker, respelled. -/
theorem unmarked_respelled {aliases : List String} {consumed consumed' : List Marker} {c c' : Class}
    (h : c.prelude.Respells aliases consumed c'.prelude)
    (hmarkers : ∀ m ∈ consumed, m ∈ consumed' ∨ m ∈ entryMarkers) :
    (c.unmarked aliases).prelude.Respells aliases consumed' (c'.unmarked aliases).prelude :=
  ⟨h.lead, h.gap, strip_respelled h.decorators hmarkers⟩

/-- The one entry marker of a definition is the only one it carries. -/
theorem any_marks_of_entry {aliases : List String} {ds : List Decorator} {d : Decorator}
    (h : entryDecorators aliases ds = [d]) {m : Marker} (hm : m ∈ entryMarkers) :
    ds.any (m.marks aliases) = m.marks aliases d := by
  rw [any_marks_eq hm, h, List.any_cons, List.any_nil, Bool.or_false]

section

variable {s : Surroundings} {c c' : Class} {d d' : Decorator} {consumed : List Marker}

theorem expandClass_interface_respelled (hd : d.Respells s.settings.aliases consumed d')
    (hprelude : c.prelude.Respells s.settings.aliases entryMarkers c'.prelude)
    (hhead : c.head.unplaced = c'.head.unplaced) (hbody : c.body.Respells s.settings.aliases true c'.body)
    (hplain : Plain s.settings.aliases c.body.decorators) (p : Progress) :
    RunAlike (fun out out' => out.map Statement.unplaced = out'.map Statement.unplaced)
      (expandClass s .interface d c p) (expandClass s .interface d' c' p) := by
  have hname := Class.name_eq hhead
  have hrest : (c.unmarked s.settings.aliases).prelude.Respells s.settings.aliases []
      (c'.unmarked s.settings.aliases).prelude := unmarked_respelled hprelude fun m hm => .inr hm
  have hread : Alike (fun k k' => k.unplaced = k'.unplaced)
      (expandInterface s.settings.aliases d.expression.arguments (c.unmarked s.settings.aliases).statement)
      (expandInterface s.settings.aliases d'.expression.arguments (c'.unmarked s.settings.aliases).statement) :=
    expandInterface_respelled hd.arguments_eq (hrest.unplaced_eq (plain_unmarked _ _) (by simp)) hhead hbody hplain
  refine (RunAlike.checking hread s _ _ p).bind fun k k' q _ _ hk => ⟨?_, ?_⟩
  · simp only [List.map_cons, List.map_nil, ← Class.statement_unplaced, hk]
  · simp only [hname]

theorem expandClass_implementation_respelled (hd : d.Respells s.settings.aliases consumed d')
    (hprelude : c.prelude.Respells s.settings.aliases (entryMarkers ++ [.runInline]) c'.prelude)
    (hhead : c.head.unplaced = c'.head.unplaced) (hbody : c.body.unplaced = c'.body.unplaced) (p : Progress) :
    RunAlike (fun out out' => out.map Statement.unplaced = out'.map Statement.unplaced)
      (expandClass s .implementation d c p) (expandClass s .implementation d' c' p) := by
  have hname := Class.name_eq hhead
  have hrest : (c.unmarked s.settings.aliases).prelude.Respells s.settings.aliases [.runInline]
      (c'.unmarked s.settings.aliases).prelude :=
    unmarked_respelled hprelude fun m hm => (List.mem_append.mp hm).symm
  have hread : Alike (fun i i' => i.unplaced = i'.unplaced)
      (Implementation.read s.settings.aliases s.typeVariables d.expression.arguments
        (c.unmarked s.settings.aliases).statement)
      (Implementation.read s.settings.aliases s.typeVariables d'.expression.arguments
        (c'.unmarked s.settings.aliases).statement) :=
    read_respelled s.typeVariables hd.arguments_eq hrest hhead hbody
  refine (RunAlike.checking hread s _ _ p).bind fun i i' q _ _ hi => ?_
  have hexpanded : (i.expanded s.settings.testPrefix q.counter).map Statement.unplaced =
      (i'.expanded s.settings.testPrefix q.counter).map Statement.unplaced := by
    rw [← Implementation.expanded_unplaced, hi, Implementation.expanded_unplaced]
  have hlength := congrArg List.length hexpanded
  have hinstantiations := congrArg List.length (congrArg Implementation.instantiations hi)
  simp only [Implementation.unplaced, List.length_map] at hlength hinstantiations
  refine ⟨hexpanded, ?_⟩
  simp only [hname, hlength, hinstantiations]

/-- A marked class is expanded alike however its markers and those of its tests are spelled. -/
theorem expandClass_respelled (hentry : entryDecorators s.settings.aliases c.prelude.decorators = [d])
    (hd : d.Respells s.settings.aliases consumed d')
    (hprelude : c.prelude.Respells s.settings.aliases
      (consumedOfClass s.settings.aliases c.prelude.decorators) c'.prelude)
    (hhead : c.head.unplaced = c'.head.unplaced)
    (hbody : c.body.Respells s.settings.aliases
      (c.prelude.decorators.any (Marker.interface.marks s.settings.aliases)) c'.body)
    (hplain : Plain s.settings.aliases c.body.decorators) (p : Progress) :
    RunAlike (fun out out' => out.map Statement.unplaced = out'.map Statement.unplaced)
      (expandClass s (entryMarker s.settings.aliases d) d c p)
      (expandClass s (entryMarker s.settings.aliases d) d' c' p) := by
  have hmem : d ∈ entryDecorators s.settings.aliases c.prelude.decorators := hentry ▸ List.mem_singleton_self d
  have hmarks := entryMarker_marks (List.mem_filter.mp hmem).2
  rw [any_marks_of_entry hentry (by decide)] at hbody
  rw [consumedOfClass, any_marks_of_entry hentry (by decide)] at hprelude
  by_cases hinterface : Marker.interface.marks s.settings.aliases d = true
  · have hother : Marker.implementation.marks s.settings.aliases d = false := by
      rw [Bool.eq_false_iff]
      intro hother
      cases Marker.marks_unique hinterface hother
    rw [hinterface] at hbody
    rw [hother] at hprelude
    rw [entryMarker, if_pos hinterface]
    exact expandClass_interface_respelled hd hprelude hhead hbody hplain p
  · rw [entryMarker, if_neg hinterface] at hmarks ⊢
    rw [Bool.eq_false_iff.mpr hinterface] at hbody
    rw [hmarks] at hprelude
    exact expandClass_implementation_respelled hd hprelude hhead (hbody.unplaced_eq hplain) p

end

/-! ## The walk -/

mutual

/-- Respelled statements are expanded alike.  Nothing is asked of what becomes of the members of an interface: the walk
goes through them only to reject markers, and the interface is expanded from what was there before. -/
theorem expandStatement_respelled (s : Surroundings) (inside : Bool) {member : Bool} {st st' : Statement}
    (h : st.Respells s.settings.aliases member st') (p : Progress) :
    RunAlike (fun out out' => member = false → out.map Statement.unplaced = out'.map Statement.unplaced)
      (expandStatement s inside st p) (expandStatement s inside st' p) := by
  match h with
  | .simple hbody =>
    refine ⟨fun _ => ?_, rfl⟩
    simp only [List.map_cons, List.map_nil, Statement.unplaced, hbody]
  | .clause hhead hbody =>
    rw [expandStatement, expandStatement]
    refine (expandSuite_respelled s inside hbody p).map fun b b' q _ _ hb _ => ?_
    simp only [List.map_cons, List.map_nil, Statement.unplaced, hhead, hb rfl]
  | .ofFunction hprelude hhead hbody =>
    rw [expandStatement, expandStatement]
    refine (RunAlike.checking (enterFunction_respelled hprelude.decorators) s _ _ p).bind fun _ _ q hcheck _ _ => ?_
    refine (expandSuite_respelled s inside hbody q).map fun b b' q' _ _ hb hmember => ?_
    subst hmember
    have hplain := enterFunction_eq_ok (checking_eq_ok hcheck).1
    have hbefore := hprelude.unplaced_eq hplain (by simp [consumedOfFunction])
    simp only [List.map_cons, List.map_nil, Statement.unplaced, hbefore, hhead, hb rfl]
  | .ofClass hprelude hhead hbody =>
    rw [expandStatement, expandStatement]
    refine (RunAlike.checking (enterClass_respelled hprelude.decorators inside) s _ _ p).bind
      fun o o' q hcheck _ hentry => ?_
    have henter := enterClass_eq_ok (checking_eq_ok hcheck).1
    cases hentry with
    | none =>
      obtain ⟨hnone, -⟩ | ⟨d, -, -, hsome⟩ := henter
      · -- A class without an entry marker has nothing that is consumed, and its members are none of an interface.
        have hplain := plain_iff.mpr hnone
        have hmember := any_marks_of_plain hplain (show Marker.interface ∈ entryMarkers by decide)
        have hbefore := hprelude.unplaced_eq hplain (by
          simp [consumedOfClass, any_marks_of_plain hplain (show Marker.implementation ∈ entryMarkers by decide)])
        refine (expandSuite_respelled s inside hbody q).map fun b b' _ _ _ hb _ => ?_
        simp only [List.map_cons, List.map_nil, Statement.unplaced, hbefore, hhead, hb hmember]
      · cases hsome
    | @some e e' he =>
      obtain ⟨-, hnone⟩ | ⟨d, hd, -, hsome⟩ := henter
      · cases hnone
      · cases hsome
        obtain ⟨m, d'⟩ := e'
        obtain ⟨rfl, hrespelled⟩ := he
        refine (expandSuite_respelled s true hbody q).bind fun b b' r hwalk _ _ => ?_
        -- The walk inside has found no marker, so the members that are no tests cannot be respelled either.
        obtain ⟨rfl, -, -⟩ := expandSuite_inside hwalk
        exact (expandClass_respelled hd hrespelled hprelude hhead hbody (expandSuite_plain hwalk) r).mono
          fun _ _ hout _ => hout

theorem expandSuite_respelled (s : Surroundings) (inside : Bool) {member : Bool} {b b' : Suite}
    (h : b.Respells s.settings.aliases member b') (p : Progress) :
    RunAlike (fun b b' => member = false → b.unplaced = b'.unplaced) (expandSuite s inside b p)
      (expandSuite s inside b' p) := by
  match h with
  | .inline hbody =>
    refine ⟨fun _ => ?_, rfl⟩
    rw [Suite.unplaced, hbody, Suite.unplaced]
  | .block hbody =>
    rw [expandSuite, expandSuite]
    refine (expandStatements_respelled s inside hbody p).map fun ss ss' q _ _ hss hmember => ?_
    rw [Suite.unplaced, statementsUnplaced_eq_map, hss hmember, ← statementsUnplaced_eq_map, Suite.unplaced]

theorem expandStatements_respelled (s : Surroundings) (inside : Bool) {member : Bool} {ss ss' : List Statement}
    (h : StatementsRespell s.settings.aliases member ss ss') (p : Progress) :
    RunAlike (fun out out' => member = false → out.map Statement.unplaced = out'.map Statement.unplaced)
      (expandStatements s inside ss p) (expandStatements s inside ss' p) := by
  match h with
  | .nil => exact ⟨fun _ => rfl, rfl⟩
  | .cons hfirst hrest =>
    rw [expandStatements, expandStatements]
    refine (expandStatement_respelled s inside hfirst p).bind fun a a' q _ _ ha => ?_
    refine (expandStatements_respelled s inside hrest q).map fun b b' _ _ _ hb hmember => ?_
    rw [List.map_append, List.map_append, ha hmember, hb hmember]

end

/-! ## Modules -/

theorem typeVariables_respelled {aliases : List String} {m m' : Module} (h : m.Respells aliases m') :
    typeVariables m = typeVariables m' := by
  rw [typeVariables, typeVariablesOfAll_respelled h.body, typeVariables]

/-- However the markers that an expansion consumes are spelled, by their word or after any of the module names, the
result is the same: both modules are expanded to the same tree but for places, which renders to the same text, or both
expansions fail with the same kind, message and notes.  The progress is the same as well. -/
theorem expandModule_respelled (settings : Settings) (filename : String) {m m' : Module}
    (h : m.Respells settings.aliases m') (p : Progress) :
    ∃ q, (∃ out out', (expandModule settings filename m).run p = (.ok out, q) ∧
        (expandModule settings filename m').run p = (.ok out', q) ∧
        out.unplaced = out'.unplaced ∧ out.render = out'.render) ∨
      (∃ e e', (expandModule settings filename m).run p = (.error e, q) ∧
        (expandModule settings filename m').run p = (.error e', q) ∧ e.wording = e'.wording) := by
  have hsurroundings : m.surroundings settings filename = m'.surroundings settings filename := by
    rw [Module.surroundings, typeVariables_respelled h, Module.surroundings]
  have hbody := expandStatements_respelled (m.surroundings settings filename) false h.body p
  have hmodule : RunAlike (fun out out' : Module => out.unplaced = out'.unplaced)
      (expandModule settings filename m p) (expandModule settings filename m' p) := by
    rw [expandModule, expandModule, ← Module.surroundings, ← Module.surroundings, ← hsurroundings]
    refine hbody.map fun body body' _ _ _ hbody => ?_
    simp only [Module.unplaced, hbody rfl, h.style, h.footer, h.ended]
  obtain ⟨q, ⟨out, out', hout, hout', hsame⟩ | hfail⟩ := hmodule.cases
  · refine ⟨q, .inl ⟨out, out', hout, hout', hsame, ?_⟩⟩
    rw [← Module.render_unplaced, hsame, Module.render_unplaced]
  · exact ⟨q, .inr hfail⟩

/-- An interface with a test that has to panic, and an implementation that is tested where it stands, with every marker
written after the module name if one is given. -/
def markedModule (through : Option String) : Module :=
  let test : Function :=
    { emptyTest "panics" with
      prelude := { decorators := [Marker.test.written through none,
        Marker.shouldPanic.written through (some [.ofText "x"]),
        Marker.requires.written through (some [.ofName "Sized"])] } }
  let interface : Class :=
    { decoratedClass "" "Shape" [] [test.statement] with
      prelude := { decorators := [Marker.interface.written through none] } }
  let implementation : Class :=
    { decoratedClass "" "Square" ["Shape"] [.line (.node .statement [.ofName "pass"])] with
      prelude := { decorators := [Marker.implementation.written through none, Marker.runInline.written through none] } }
  { body := [interface.statement, implementation.statement] }

theorem markedModule_respells :
    (markedModule none).Respells ({} : Settings).aliases (markedModule (some "tt")) := by
  have hbare : ∀ a ∈ (none : Option String), a ∈ ({} : Settings).aliases := by simp
  have hqualified : ∀ a ∈ some "tt", a ∈ ({} : Settings).aliases := by decide
  refine ⟨rfl, .cons (.ofClass ⟨rfl, rfl, .cons ?_ .nil⟩ rfl (.block (.cons
    (.ofFunction ⟨rfl, rfl, .cons ?_ (.cons ?_ (.cons ?_ .nil))⟩ rfl (.inline rfl)) .nil))) (.cons
    (.ofClass ⟨rfl, rfl, .cons ?_ (.cons ?_ .nil)⟩ rfl (.block (.cons (.simple rfl) .nil))) .nil), rfl, rfl⟩
  all_goals exact Marker.written_respells (by decide +kernel) hbare hqualified _

/-- Both are expanded, the implementation into a class, a function and its call. -/
theorem expandModule_respelled_markedModule :
    (markedModule none).Respells ({} : Settings).aliases (markedModule (some "tt")) ∧
      ((expandModule {} "<string>" (markedModule none)).run {}).2.implementations = ["Square"] ∧
      ∃ q, (∃ out out', (expandModule {} "<string>" (markedModule none)).run {} = (.ok out, q) ∧
          (expandModule {} "<string>" (markedModule (some "tt"))).run {} = (.ok out', q) ∧
          out.unplaced = out'.unplaced ∧ out.render = out'.render) ∨
        (∃ e e', (expandModule {} "<string>" (markedModule none)).run {} = (.error e, q) ∧
          (expandModule {} "<string>" (markedModule (some "tt"))).run {} = (.error e', q) ∧ e.wording = e'.wording) :=
  ⟨markedModule_respells, by decide +kernel, expandModule_respelled {} "<string>" markedModule_respells {}⟩

end Conformance
