import Conformance.Proofs.Expansion.Located
import Conformance.Proofs.Implementation.Decision
import Conformance.Proofs.Implementation.Names
import Conformance.Proofs.Implementation.Shape
import Conformance.Proofs.Source.Readback

/-!
# The expansion is read back

Expressions are cut out of decorators, lists of bases, tuples and annotations and put into generated calls and
assignments.  Each of them is an excerpt that can stand where it is put, so the hidden method of an interface
(`stands_method`) and the functions of an implementation (`Implementation.stands_added`) are read as they were made, and
with the statements that stay so is the whole module (`expandModule_legible`).

The only expressions for which this fails are generators without parentheses of their own (`Guarded`).
-/

namespace Conformance

open Source SyntaxTree Grammar

/-! ## The hidden method -/

/-- A test of which the generated code can be read. -/
structure AssociatedTest.Sound (t : AssociatedTest) : Prop where
  name : isUsable t.name = true
  requirements : ∀ r ∈ t.requirements, Grammar.Fits r.spelling
  expected : ∀ e, t.kind = .shouldPanic (some e) → Grammar.Fits e.spelling
  output : ∀ e, t.kind = .returnsResult e → Annotates e.spelling
  function : t.function.statement.Meets parsedForm false

theorem made_helper {s : String} (hs : isUsable s = true) : Made (Runner.helper s) :=
  have hmodule : Made (.ofName Naming.helpers) := .name (by decide)
  .dot hmodule.grows.takesDot hmodule.proper hs

theorem fits_text (s : String) : Grammar.Fits (SyntaxTree.ofText s).spelling := Fits.string rfl

theorem made_implementer : Made Runner.implementer := .name (by decide)

theorem stands_printing (s : String) : (Runner.printing s).Stands :=
  (Made.name (by decide)).stands_call (by simpa using fits_text s)

theorem fits_typeArguments (t : AssociatedTest) : ∀ e ∈ Runner.typeArguments t, Grammar.Fits e.spelling := by
  intro e he
  unfold Runner.typeArguments at he
  split at he
  · cases List.mem_singleton.mp he
    exact made_implementer.fits
  · cases he

theorem fresh_subset (seen : List String) (rs : List SyntaxTree) : Runner.fresh seen rs ⊆ rs := by
  fun_induction Runner.fresh seen rs with
  | case1 => exact List.nil_subset _
  | case2 seen r rs _ ih => exact List.subset_cons_of_subset r ih
  | case3 seen r rs _ ih => exact List.cons_subset_cons r ih

/-- The requirements of tests are arguments. -/
theorem stands_checkRequirements {tests : List AssociatedTest} (h : ∀ t ∈ tests, t.Sound) :
    (Statement.ofExpression
      ((Runner.helper "check_requirements").apply (Runner.implementer :: Runner.union tests))).Stands := by
  refine (made_helper (by decide)).stands_call fun e he => ?_
  rcases List.mem_cons.mp he with rfl | he
  · exact made_implementer.fits
  rcases List.mem_cons.mp he with rfl | he
  · exact (made_helper (by decide)).fits
  obtain ⟨t, ht, hr⟩ := List.mem_flatMap.mp (fresh_subset _ _ he)
  exact (h t ht).requirements e hr

theorem stands_annotated {note value : SyntaxTree} (hnote : Annotates note.spelling) (hvalue : Made value) :
    (Statement.line (.node .annotated
      [.ofName Naming.result, .ofSpaced ":", note.trailing " ", .ofSpaced "=", value])).Stands := by
  refine ⟨⟨by simp, rfl, ?_, trivial⟩, rfl⟩
  have hleaves : leavesAll (spellings [.node .simple [.node .annotated
      [.ofName Naming.result, .ofSpaced ":", note.trailing " ", .ofSpaced "=", value]]]) =
      { kind := .name, text := Naming.result } :: { kind := .operator, text := ":" } ::
        (note.spelling.leaves ++ { kind := .operator, text := "=" } :: value.spelling.leaves) := by
    simp [spellings_eq_map, leaves, leavesAll, ofName, ofSpaced, Token.spelling]
  have hall : ∀ t ∈ leavesAll (spellings [.node .simple [.node .annotated
      [.ofName Naming.result, .ofSpaced ":", note.trailing " ", .ofSpaced "=", value]]]), t.Proper := by
    rw [hleaves]
    refine List.forall_mem_cons.mpr ⟨by decide, List.forall_mem_cons.mpr ⟨by decide, ?_⟩⟩
    obtain ⟨_, -, hproper, -⟩ := hnote
    exact List.forall_mem_append.mpr ⟨(List.forall_mem_append.mp hproper).1,
      List.forall_mem_cons.mpr ⟨by decide, hvalue.proper⟩⟩
  refine .of_spellings hall ?_
  rw [hleaves] at hall ⊢
  refine (read_annotated_line rfl (by decide) rfl rfl rfl hnote hvalue.grows hall).trans ?_
  simp [spellings_eq_map, ofName, ofSpaced, Token.spelling]

theorem AssociatedTest.Sound.stands_run {t : AssociatedTest} (h : t.Sound) : ∀ st ∈ Runner.run t, st.Stands := by
  have hname : Made (.ofName t.name) := .name h.name
  have hcalled : Made ((SyntaxTree.ofName t.name).apply (Runner.typeArguments t)) := hname.apply (fits_typeArguments t)
  unfold Runner.run
  split
  · refine List.forall_mem_singleton.mpr ((made_helper (by decide)).stands_call ?_)
    simpa using ⟨hcalled.fits, fits_text t.name⟩
  · next output hkind =>
    refine List.forall_mem_cons.mpr ⟨stands_annotated (h.output output hkind) hcalled, List.forall_mem_singleton.mpr ?_⟩
    exact (made_helper (by decide)).stands_call (List.forall_mem_singleton.mpr (Made.name (by decide)).fits)
  · next expected hkind =>
    refine List.forall_mem_singleton.mpr ((made_helper (by decide)).stands_call ?_)
    refine List.forall_mem_cons.mpr ⟨((made_helper (by decide)).apply ?_).fits, ?_⟩
    · exact List.forall_mem_cons.mpr ⟨hname.fits, fits_typeArguments t⟩
    · intro e he
      exact h.expected e (hkind.trans (congrArg _ (Option.mem_toList.mp he)))

/-- A function that is moved is read as before. -/
theorem stands_nested {f : Function} (h : f.statement.Meets parsedForm false) : (Runner.nested f).Stands := by
  obtain ⟨hcases, hprelude, hdefinite, hbody⟩ := h
  exact ⟨⟨hcases, ⟨by simp [parsedForm], hprelude.decorators, hprelude.gap⟩, hdefinite, hbody⟩, rfl⟩

theorem stands_importHelpers : Runner.importHelpers.Stands :=
  ⟨⟨by simp, rfl, .of_spellings (by decide) rfl, trivial⟩, rfl⟩

theorem AssociatedTest.Sound.stands_block {t : AssociatedTest} (h : t.Sound) (interface : String) :
    ∀ st ∈ Runner.block interface t, st.Stands := by
  refine List.forall_mem_append.mpr ⟨List.forall_mem_cons.mpr ⟨stands_nested h.function, ?_⟩, h.stands_run⟩
  exact List.forall_mem_singleton.mpr (stands_printing _)

/-- The hidden method is read back, if the parts of its tests are. -/
theorem stands_method (interface : String) {tests : List AssociatedTest} (h : ∀ t ∈ tests, t.Sound) :
    (Runner.method interface tests).Stands := by
  have hbody : ∀ st ∈ [Runner.importHelpers, .ofExpression
      ((Runner.helper "check_requirements").apply (Runner.implementer :: Runner.union tests)),
      Runner.printing (Runner.summary interface tests.length)] ++ tests.flatMap (Runner.block interface), st.Stands := by
    refine List.forall_mem_append.mpr ⟨?_, List.forall_mem_flatMap.mpr fun t ht => (h t ht).stands_block interface⟩
    simpa using ⟨stands_importHelpers, stands_checkRequirements h, stands_printing _⟩
  refine ⟨⟨rfl, ⟨by simp [parsedForm], ?_, by simp⟩, rfl, .of_spellings (by decide) rfl, trivial, trivial,
    List.cons_ne_nil _ _, ?_, follows_of_stands hbody, by simp⟩, rfl⟩
  · exact List.forall_mem_singleton.mpr ⟨by simp, .of_spellings (by decide) rfl, trivial⟩
  · exact (statementsMeet_iff _).mpr fun st hst => (hbody st hst).meets

/-! ## Preludes -/

/-- A prelude may lose decorators. -/
theorem Source.Prelude.Meets.subset {f : Form} {p : Prelude} (h : p.Meets f) {ds : List Decorator}
    (hds : ds ⊆ p.decorators) : Prelude.Meets f { p with decorators := ds } :=
  ⟨h.lead, fun d hd => h.decorators d (hds hd), h.gap⟩

/-- What a decorator of a parsed definition is given can be moved. -/
theorem Source.Prelude.Meets.excerpt {p : Prelude} (h : p.Meets parsedForm) {d : Decorator} (hd : d ∈ p.decorators)
    {a v : SyntaxTree} (ha : a ∈ d.expression.arguments) (hv : a.Gives v) : Excerpt v := by
  have hline : Readable false [d.tree] := (h.decorators d hd).2.1
  refine argument_excerpt (fun t ht => hline.proper t ?_) hline.decorator ha hv
  simpa [Decorator.tree, leavesAll, leaves] using .inr ht

/-! ## Tests -/

/-- Whether the argument is a generator without parentheses of its own. -/
def Source.SyntaxTree.isBareArgument (a : SyntaxTree) : Bool :=
  match a.argument? with
  | some (.positional v) => v.isBareGenerator
  | _ => false

/-- Whether a test requires or expects what a generator without parentheses of its own gives. -/
def Function.passesGenerator (aliases : List String) (f : Function) : Bool :=
  f.prelude.decorators.any fun d => (Marker.requires.marks aliases d || Marker.shouldPanic.marks aliases d) &&
    d.expression.arguments.any SyntaxTree.isBareArgument

section
variable {aliases : List String} {f : Function} {t : AssociatedTest}

/-- The text that a test expects is an argument of its marker. -/
theorem argument_of_testKind {e : SyntaxTree} (h : testKind aliases f = .ok (.shouldPanic (some e))) :
    ∃ d ∈ f.prelude.decorators, Marker.shouldPanic.marks aliases d = true ∧ ∃ a ∈ d.expression.arguments,
      a.argument? = some (.positional e) ∨ ∃ n, a.argument? = some (.keyword n e) := by
  obtain ⟨result, -, h⟩ := Computation.except_bind_eq_ok h
  obtain ⟨panic, hpanic, h⟩ := Computation.except_bind_eq_ok h
  obtain rfl : panic = some (some e) := by
    cases panic <;> cases result <;> cases h
    rfl
  unfold shouldPanic at hpanic
  split at hpanic
  · cases hpanic
  · next d hd =>
    obtain ⟨hmem, hmarks⟩ := List.mem_filter.mp (hd ▸ List.mem_singleton_self d)
    refine ⟨d, hmem, hmarks, ?_⟩
    split at hpanic
    · cases hpanic
    · next a ha =>
      refine ⟨a, ha ▸ List.mem_singleton_self a, ?_⟩
      split at hpanic
      · next hvalue =>
        cases hpanic
        exact .inl hvalue
      · next n value hvalue =>
        split at hpanic
        · cases hpanic
          exact .inr ⟨n, hvalue⟩
        · cases hpanic
      · cases hpanic
    · cases hpanic
  · cases hpanic

/-- A requirement of a test is an argument of its marker. -/
theorem argument_of_requirement {rs : List SyntaxTree} {r : SyntaxTree} (h : requirementsOf aliases f = .ok rs)
    (hr : r ∈ rs) : ∃ d ∈ f.prelude.decorators, Marker.requires.marks aliases d = true ∧
      ∃ a ∈ d.expression.arguments, a.argument? = some (.positional r) := by
  obtain ⟨a, ha, hrequirement⟩ := exists_partner (List.Forall₂.flip (Computation.mapM_eq_ok h)) hr
  obtain ⟨d, hd, ha⟩ := List.mem_flatMap.mp ha
  obtain ⟨hmem, hmarks⟩ := List.mem_filter.mp hd
  refine ⟨d, hmem, hmarks, a, ha, ?_⟩
  unfold requirement at hrequirement
  split at hrequirement
  · next hvalue =>
    cases hrequirement
    exact hvalue
  · cases hrequirement

/-- A name that was read may be used. -/
theorem isUsable_of_accepts {t : Token} (h : Match.name.accepts t = true) (ht : t.Proper) : isUsable t.text = true := by
  simp only [Match.accepts, Bool.and_eq_true, beq_iff_eq] at h
  have hproper : t.text ∉ punctuation := ht h.1
  simp only [isUsable, Match.accepts, h.2]
  simpa using hproper

/-- The code of an accepted test can be read back. -/
theorem Accepted.sound (h : Accepted aliases f t) (hf : f.statement.Meets parsedForm false)
    (hbare : f.passesGenerator aliases = false) : t.Sound := by
  obtain ⟨hcases, hprelude, hdefinite, hbody⟩ := hf
  have hshaped := Function.shaped ⟨hcases, hprelude, hdefinite, hbody⟩
  obtain ⟨more, hline⟩ := hbody.readable_head
  have hproper : ∀ u ∈ f.head.tokens, u.Proper := fun u hu =>
    hline.proper u (List.mem_append_left _ (f.leaves_tree ▸ hu))
  have hgiven : ∀ d ∈ f.prelude.decorators,
      (Marker.requires.marks aliases d || Marker.shouldPanic.marks aliases d) = true → ∀ a ∈ d.expression.arguments,
      ∀ v, (a.argument? = some (.positional v) ∨ ∃ n, a.argument? = some (.keyword n v)) → Grammar.Fits v.spelling := by
    intro d hd hmarks a ha v hv
    refine (hprelude.excerpt hd ha (hv.imp_left fun hv => ⟨hv, ?_⟩)).spelling.fits
    rw [Bool.eq_false_iff]
    intro hgenerator
    rw [Function.passesGenerator, Bool.eq_false_iff] at hbare
    refine hbare (List.any_eq_true.mpr ⟨d, hd, Bool.and_eq_true_iff.mpr ⟨hmarks, List.any_eq_true.mpr ⟨a, ha, ?_⟩⟩⟩)
    rw [SyntaxTree.isBareArgument, hv]
    exact hgenerator
  refine ⟨?_, fun r hr => ?_, fun e he => ?_, fun e he => ?_, ?_⟩
  · rw [h.name]
    exact isUsable_of_accepts hshaped.accepted (hproper _ Function.name_mem)
  · obtain ⟨d, hd, hmarks, a, ha, hv⟩ := argument_of_requirement h.requirements hr
    exact hgiven d hd (by simp [hmarks]) a ha r (.inl hv)
  · obtain ⟨d, hd, hmarks, a, ha, hv⟩ := argument_of_testKind (he ▸ h.kind)
    exact hgiven d hd (by simp [hmarks]) a ha e hv
  · exact (hshaped.returns e (returns?_of_testKind (he ▸ h.kind))).spelling
  · rw [h.function]
    exact ⟨hcases, hprelude.subset (keptDecorators_subset aliases _), hdefinite, hbody⟩

end

/-! ## Interfaces -/

section
variable {c : Class}

/-- A class whose body stands on the line of its head is read the same with a block. -/
theorem Class.asBlock_meets (h : c.statement.Meets parsedForm false) :
    Readable false [c.asBlock.1.tree] ∧ c.asBlock.2.body ≠ [] ∧ statementsMeet parsedForm false c.asBlock.2.body ∧
      follows .nothing c.asBlock.2.body = true := by
  obtain ⟨prelude, head, body⟩ := c
  obtain ⟨-, -, hbody⟩ := h
  cases body with
  | block opening indent body footer =>
    obtain ⟨hline, -, -, hne, hstatements, hfollows, -⟩ := hbody
    exact ⟨hline, hne, hstatements, hfollows⟩
  | inline body stop =>
    obtain ⟨hline, -⟩ := hbody
    obtain ⟨hhead, hsimple⟩ := read_classHead_line hline.proper hline.read_eq
    obtain ⟨hheadProper, hbodyProper⟩ := List.forall_mem_append.mp hline.proper
    have hhead : Readable false [head.tree] := by
      have hleaves : leavesAll [head.tree] = head.tree.leaves := List.append_nil _
      exact ⟨hleaves ▸ hheadProper, hleaves ▸ readLine?_eq_some.mpr hhead⟩
    have hown : Readable false [body] := by
      refine ⟨hbodyProper, readLine?_eq_some.mpr (read_line_of_simple hbodyProper ?_)⟩
      rwa [leavesAll, leavesAll, List.append_nil]
    refine ⟨hhead.respaced ?_, List.cons_ne_nil _ _, ⟨⟨by simp, ?_, ?_, trivial⟩, trivial⟩, rfl⟩
    · have hlast := spellings_mapLastAll (f := fun t => { t with after := {} }) (fun _ => rfl) head.rest
      simp only [Class.asBlock, ClassHead.tree, spellings, SyntaxTree.spelling] at hlast ⊢
      rw [hlast]
    · have hbare : body.bare.is .simple = body.is .simple := by rw [← is_spelling, spelling_bare, is_spelling]
      split
      · exact hline.body
      · exact hbare.trans hline.body
    · split
      · exact hown
      · exact hown.respaced (by simp [spellings_eq_map])

variable {aliases : List String}

/-- An interface is replaced by a class that can be read back. -/
theorem expandInterface_meets {args : List SyntaxTree} {c' : Class} (hc : c.statement.Meets parsedForm false)
    (hbare : ∀ f ∈ c.asBlock.2.body.filterMap (test? aliases), f.passesGenerator aliases = false)
    (h : expandInterface aliases args c.statement = .ok c') : c'.statement.Meets parsedForm false := by
  obtain ⟨-, i, hi, rfl⟩ := expandInterface_eq_ok h
  obtain ⟨tests, htests, -, rfl⟩ := Interface.ofClass_eq_ok hi
  obtain ⟨hhead, -, hbody, hfollows⟩ := Class.asBlock_meets hc
  have hstatements := (statementsMeet_iff _).mp hbody
  have hsound : ∀ t ∈ tests, t.Sound := fun t ht => by
    obtain ⟨f, hf, haccepted⟩ := exists_partner (List.Forall₂.flip htests) ht
    exact haccepted.sound (hstatements _ (mem_of_test? hf)) (hbare f hf)
  have hmethod := stands_method c.asBlock.1.name.text hsound
  refine ⟨rfl, hc.2.1, hhead, trivial, trivial, by simp, ?_, ?_, by simp [parsedForm]⟩
  · refine (statementsMeet_iff _).mpr (List.forall_mem_append.mpr ⟨fun st hst => ?_, ?_⟩)
    · exact hstatements st (List.mem_filter.mp hst).1
    · exact List.forall_mem_singleton.mpr hmethod.meets
  · refine follows_append (follows_filter (fun st hst => ?_) hfollows) (follows_of_stands (List.forall_mem_singleton.mpr hmethod))
    cases st with
    | ofFunction prelude head body => rfl
    | _ => cases hst

end

/-! ## Implementations -/

/-- An instantiation of which the generated function can be read. -/
structure Instantiation.Sound (i : Instantiation) : Prop where
  implementer : Grammar.Fits i.implementer.spelling
  interface : Excerpt i.interface

/-- The name and the bases of a class that was parsed. -/
theorem Source.ClassHead.parts_of_readable {h : ClassHead} {more : List SyntaxTree} (hline : Readable false (h.tree :: more)) :
    isUsable h.name.text = true ∧ ∀ base ∈ h.positionalBases, Excerpt base := by
  obtain ⟨word, name, types, bases, colon, hcs, hname, htypes, hbases⟩ := hline.classShape
  obtain ⟨headWord, headName, rest⟩ := h
  simp only [List.cons.injEq, leaf.injEq] at hcs
  obtain ⟨-, rfl, rfl⟩ := hcs
  refine ⟨isUsable_of_accepts hname (hline.proper _ (by simp [ClassHead.tree, leavesAll, leaves])), fun base hbase => ?_⟩
  obtain ⟨argument, hargument, hpositional⟩ := List.mem_filterMap.mp hbase
  rcases hbases with rfl | ⟨opening, as, closing, rfl, hexcerpt⟩
  · rcases htypes with rfl | ⟨ds, rfl⟩ <;> cases hargument
  · have hlist : ClassHead.bases ⟨headWord, headName,
        types ++ [.node .bases (.leaf opening :: (as ++ [.leaf closing]))] ++ [.leaf colon]⟩ =
        (leaf opening :: (as ++ [leaf closing])).filterMap SyntaxTree.argument? := by
      rcases htypes with rfl | ⟨ds, rfl⟩ <;> rfl
    rw [hlist] at hargument
    obtain ⟨a, ha, hargument⟩ := List.mem_filterMap.mp hargument
    have ha : a ∈ as := by
      rcases List.mem_cons.mp ha with rfl | ha
      · cases hargument
      · rcases List.mem_append.mp ha with ha | ha
        · exact ha
        · cases List.mem_singleton.mp ha
          cases hargument
    cases argument with
    | positional v =>
      cases hpositional
      exact hexcerpt a ha _ hargument
    | _ => cases hpositional

/-- A pair holds expressions that can be moved. -/
theorem Source.Prelude.Meets.sound_pair {p : Prelude} (h : p.Meets parsedForm) {d : Decorator} (hd : d ∈ p.decorators)
    {a : SyntaxTree} (ha : a ∈ d.expression.arguments) {i : Instantiation} (hi : a.Pairs i) : i.Sound := by
  obtain ⟨v, hv, htuple, hitems, hfirst, hsecond⟩ := hi
  have hbare : v.isBareGenerator = false := by
    rw [SyntaxTree.isBareGenerator, Bool.and_eq_false_iff]
    left
    cases v with
    | leaf t => rfl
    | node k cs =>
      rw [SyntaxTree.is, beq_eq_false_iff_ne]
      rintro rfl
      cases htuple
  obtain ⟨ts, -, hproper, hread⟩ := h.excerpt hd ha (.inl ⟨hv, hbare⟩)
  obtain ⟨himplementer, hinterface⟩ := pair_excerpts hproper hread htuple hitems hfirst hsecond
  exact ⟨himplementer.spelling.fits, hinterface⟩

section
variable {aliases typeVariables : List String} {c : Class} {i : Implementation}

theorem sound_of_read {d : Decorator} {p : Prelude} (hp : p.Meets parsedForm) (hd : d ∈ p.decorators)
    (hc : c.statement.Meets parsedForm false)
    (h : Implementation.read aliases typeVariables d.expression.arguments c.statement = .ok i) :
    ∀ inst ∈ i.instantiations, inst.Sound := by
  have hjudged : c.statement.JudgedAs typeVariables d.expression.arguments
      ((Implementation.read aliases typeVariables d.expression.arguments c.statement).map Implementation.instantiations) :=
    judgedAs_read
  rw [h] at hjudged
  change c.statement.JudgedAs _ _ (.ok i.instantiations) at hjudged
  obtain ⟨more, hline⟩ := hc.2.2.readable_head
  obtain ⟨hname, hbases⟩ := ClassHead.parts_of_readable hline
  generalize i.instantiations = insts at hjudged
  cases hjudged with
  | own hclass _ himplements _ =>
    cases hclass
    exact List.forall_mem_singleton.mpr ⟨(Made.name hname).fits, hbases _ (List.mem_of_find?_eq_some himplements.first)⟩
  | listed hclass _ hpairs _ _ =>
    intro inst hinst
    obtain ⟨a, ha, hpair⟩ := exists_partner (List.Forall₂.flip hpairs) hinst
    exact hp.sound_pair hd ha hpair

end

/-- Guarding adds nothing but parentheses. -/
theorem proper_guarded {e : SyntaxTree} (h : ∀ t ∈ e.spelling.leaves, t.Proper) :
    ∀ t ∈ e.guarded.spelling.leaves, t.Proper := by
  have hparen : ∀ t ∈ (node .paren [ofOperator "(", e.bare, ofOperator ")"]).spelling.leaves, t.Proper := by
    simp only [spelling_node, List.map_cons, List.map_nil, spelling_bare, leaves, leavesAll, List.append_nil]
    refine List.forall_mem_append.mpr ⟨?_, List.forall_mem_append.mpr ⟨h, ?_⟩⟩ <;>
      exact List.forall_mem_singleton.mpr (Token.proper_of_operator rfl)
  cases e with
  | leaf t =>
    rw [guarded]
    split
    · exact h
    · exact hparen
  | node k cs =>
    rw [guarded]
    split
    · exact h
    · exact hparen

/-- The function for an instantiation can be read back. -/
theorem Instantiation.Sound.stands_functionFor {inst : Instantiation} (h : inst.Sound) {name : String}
    (hname : isUsable name = true) : (Implementation.functionFor name inst).Stands := by
  obtain ⟨_, -, hproper, -⟩ := h.interface.spelling
  have hmethod : Made (inst.interface.guarded.dot Naming.hiddenMethod) :=
    .dot h.interface.takesDot_guarded (proper_guarded (List.forall_mem_append.mp hproper).1) (by decide)
  have hfunction : Made ((inst.interface.guarded.dot Naming.hiddenMethod).dot "__func__") :=
    .dot hmethod.grows.takesDot hmethod.proper (by decide)
  have hcall := hfunction.stands_call (List.forall_mem_singleton.mpr h.implementer)
  obtain ⟨haccepts, hpunctuation⟩ := Bool.and_eq_true_iff.mp hname
  have hline : Readable false [FunctionHead.tree
      { word := { kind := .name, text := "def", after := spaced }, name := { kind := .name, text := name }
        rest := [.node .parameters [.ofOperator "(", .ofOperator ")"], .ofOperator ":"] }] := by
    refine .of_spellings ?_ (read_functionHead_line haccepts)
    have hname : name ∉ punctuation := by simpa using hpunctuation
    have hword : "def" ∉ punctuation := by decide
    simp [spellings_eq_map, FunctionHead.tree, leaves, leavesAll, ofOperator, Token.spelling, Token.Proper, hname, hword]
  refine ⟨⟨rfl, ⟨by simp [parsedForm], by simp, by simp⟩, rfl, hline, trivial, trivial, List.cons_ne_nil _ _,
    ⟨hcall.meets, trivial⟩, follows_of_stands (List.forall_mem_singleton.mpr hcall), by simp⟩, rfl⟩

theorem isUsable_synthesized (beginning : String) (interface : SyntaxTree) (n : Nat) :
    isUsable (Naming.synthesized beginning interface n) = true := by
  have hkeyword := Naming.synthesized_not_mem (by decide : ∀ w ∈ keywords, '_' ∉ w.toList) beginning interface n
  have hoperator := Naming.synthesized_not_mem (by decide : ∀ w ∈ punctuation, '_' ∉ w.toList) beginning interface n
  simp [isUsable, Match.accepts, hkeyword, hoperator]

theorem stands_calls {names : List String} (h : ∀ name ∈ names, isUsable name = true) :
    ∀ st ∈ Implementation.calls names, st.Stands := by
  have hcall : ∀ name ∈ names, (Statement.ofExpression ((SyntaxTree.ofName name).apply [])).Stands := fun name hname =>
    (Made.name (h name hname)).stands_call (by simp)
  cases names with
  | nil => simp [Implementation.calls]
  | cons name names =>
    obtain ⟨hfirst, hrest⟩ := List.forall_mem_cons.mp hcall
    exact List.forall_mem_cons.mpr ⟨⟨⟨by simp [parsedForm], hfirst.meets.2⟩, hfirst.next⟩, List.forall_mem_map.mpr hrest⟩

/-- An implementation is followed by statements that can be read back. -/
theorem Implementation.stands_added {i : Implementation} (h : ∀ inst ∈ i.instantiations, inst.Sound) (discovery : String)
    (next : Nat) : ∀ st ∈ List.zipWith functionFor (i.functionNames discovery next) i.instantiations ++
      (if i.inline then calls (i.functionNames discovery next) else []), st.Stands := by
  have hnames : ∀ name ∈ i.functionNames discovery next, isUsable name = true :=
    List.forall_mem_map.mpr fun _ _ => isUsable_synthesized _ _ _
  refine List.forall_mem_append.mpr ⟨?_, ?_⟩
  · rw [← List.map_uncurry_zip_eq_zipWith]
    refine List.forall_mem_map.mpr fun pair hpair => ?_
    obtain ⟨hname, hinst⟩ := List.of_mem_zip hpair
    exact (h _ hinst).stands_functionFor (hnames _ hname)
  · split
    · exact stands_calls hnames
    · simp

/-! ## The whole module -/

/-- No test of a marked interface requires or expects what a generator without parentheses of its own gives. -/
def Guarded (aliases : List String) (cs : List Class) : Prop :=
  ∀ c ∈ cs, c.prelude.decorators.any (Marker.interface.marks aliases) = true →
    ∀ f ∈ c.asBlock.2.body.filterMap (test? aliases), f.passesGenerator aliases = false

instance (aliases : List String) (cs : List Class) : Decidable (Guarded aliases cs) :=
  inferInstanceAs (Decidable (∀ c ∈ cs, _ → ∀ f ∈ _, _ = false))

theorem Class.unmarked_meets {c : Class} (aliases : List String) (h : c.statement.Meets parsedForm false) :
    (c.unmarked aliases).statement.Meets parsedForm false := by
  refine ⟨h.1, h.2.1.subset ?_, h.2.2⟩
  rw [Marker.strip, List.partition_eq_filter_filter]
  exact List.filter_subset_self _

/-- What statements are rewritten to can be read back, and may stand wherever they did. -/
structure ReadsBack (cases : Bool) (ss out : List Statement) : Prop where
  meets : ∀ st ∈ out, st.Meets parsedForm cases
  ne_nil : ss ≠ [] → out ≠ []
  follows : ∀ a rest rest', (∀ b, follows b rest = true → follows b rest' = true) →
    Source.follows a (ss ++ rest) = true → Source.follows a (out ++ rest') = true

/-- A statement that stays one of its kind. -/
theorem ReadsBack.of_kind {cases : Bool} {st st' : Statement} (hkind : st'.kind = st.kind)
    (h : st'.Meets parsedForm cases) : ReadsBack cases [st] [st'] := by
  refine ⟨List.forall_mem_singleton.mpr h, fun _ => List.cons_ne_nil _ _, fun a rest rest' hrest hfollows => ?_⟩
  obtain ⟨next, hnext, hmore⟩ := follows_cons.mp hfollows
  exact follows_cons.mpr ⟨next, hkind ▸ hnext, hrest next hmore⟩

theorem readsBack_interface {aliases : List String} {c c' : Class} {d : Decorator} {args : List SyntaxTree}
    (hc : c.statement.Meets parsedForm false) (hd : d ∈ c.prelude.decorators)
    (hmark : Marker.interface.marks aliases d = true) (hguarded : Guarded aliases c.statement.classes)
    (h : expandInterface aliases args (c.unmarked aliases).statement = .ok c') :
    ReadsBack false [c.statement] [c'.statement] :=
  .of_kind rfl (expandInterface_meets (c.unmarked_meets aliases hc)
    (hguarded c List.mem_cons_self (List.any_eq_true.mpr ⟨d, hd, hmark⟩)) h)

theorem readsBack_implementation {aliases typeVariables : List String} {c : Class} {d : Decorator} {i : Implementation}
    (hc : c.statement.Meets parsedForm false) (hd : d ∈ c.prelude.decorators)
    (h : Implementation.read aliases typeVariables d.expression.arguments (c.unmarked aliases).statement = .ok i)
    (discovery : String) (next : Nat) : ReadsBack false [c.statement] (i.expanded discovery next) := by
  have hunmarked := c.unmarked_meets aliases hc
  have hadded := i.stands_added (sound_of_read hc.2.1 hd hunmarked h) discovery next
  obtain ⟨c₁, hitem, hdefinition, -⟩ := read_class h
  have hmeets : i.definition.statement.Meets parsedForm false := by
    rw [hitem] at hunmarked
    rw [hdefinition]
    exact ⟨hunmarked.1, hunmarked.2.1.subset (List.filter_subset_self _), hunmarked.2.2⟩
  refine ⟨List.forall_mem_cons.mpr ⟨hmeets, fun st hst => (hadded st hst).meets⟩, fun _ => List.cons_ne_nil _ _, ?_⟩
  intro a rest rest' hrest hfollows
  obtain ⟨next', hnext, hmore⟩ := follows_cons.mp hfollows
  obtain ⟨-, rfl⟩ := Awaiting.next_definition (by simp [Class.statement, Statement.kind]) hnext
  exact follows_cons.mpr ⟨.nothing, hnext, follows_append (follows_of_stands hadded) (hrest _ hmore)⟩

theorem mem_of_entryDecorators {aliases : List String} {ds : List Decorator} {d : Decorator}
    (h : entryDecorators aliases ds = [d]) : d ∈ ds :=
  (List.mem_filter.mp (h ▸ List.mem_singleton_self d)).1

mutual

theorem Rewrites.readsBack {s : Surroundings} {n n' : Nat} {cases : Bool} {st : Statement} {out : List Statement}
    (h : Rewrites s n st out n') (hst : st.Meets parsedForm cases) (hguarded : Guarded s.settings.aliases st.classes) :
    ReadsBack cases [st] out := by
  match st with
  | .simple lead body stop =>
    cases h
    exact .of_kind rfl hst
  | .clause lead head body =>
    cases h with
    | clause hbody =>
      refine .of_kind ?_ ⟨hst.1, hst.2.1, hbody.meets hst.2.2 hguarded⟩
      cases head <;> rfl
  | .ofFunction prelude head body =>
    cases h with
    | function hbody => exact .of_kind rfl ⟨hst.1, hst.2.1, hst.2.2.1, hbody.meets hst.2.2.2 hguarded⟩
  | .ofClass prelude head body =>
    obtain ⟨rfl, -⟩ := id hst
    cases h with
    | unmarked _ hbody =>
      exact .of_kind rfl ⟨rfl, hst.2.1, hbody.meets hst.2.2 fun c hc => hguarded c (List.mem_cons_of_mem _ hc)⟩
    | interface hd hmark hexpanded => exact readsBack_interface hst (mem_of_entryDecorators hd) hmark hguarded hexpanded
    | implementation hd _ hread => exact readsBack_implementation hst (mem_of_entryDecorators hd) hread _ _

theorem RewritesSuite.meets {s : Surroundings} {n n' : Nat} {cases : Bool} {head : SyntaxTree} {b b' : Suite}
    (h : RewritesSuite s n b b' n') (hb : b.Meets parsedForm cases head) (hguarded : Guarded s.settings.aliases b.classes) :
    b'.Meets parsedForm cases head := by
  match b with
  | .inline body stop =>
    cases h
    exact hb
  | .block opening indent body footer =>
    cases h with
    | block hbody =>
      obtain ⟨hline, hopening, hindent, hne, hstatements, hfollows, hfooter⟩ := hb
      have hback := hbody.readsBack hstatements hguarded
      refine ⟨hline, hopening, hindent, hback.ne_nil hne, (statementsMeet_iff _).mpr hback.meets, ?_, hfooter⟩
      simpa using hback.follows .nothing [] [] (fun _ h => h) (by simpa using hfollows)

theorem RewritesAll.readsBack {s : Surroundings} {n n' : Nat} {cases : Bool} {ss out : List Statement}
    (h : RewritesAll s n ss out n') (hss : statementsMeet parsedForm cases ss)
    (hguarded : Guarded s.settings.aliases (classesOf ss)) : ReadsBack cases ss out := by
  match ss with
  | [] =>
    cases h
    exact ⟨by simp, fun h => h, fun a rest rest' hrest hfollows => hrest a hfollows⟩
  | st :: ss =>
    cases h with
    | cons hst hrest =>
      have hfirst := hst.readsBack hss.1 fun c hc => hguarded c (List.mem_append_left _ hc)
      have hmore := hrest.readsBack hss.2 fun c hc => hguarded c (List.mem_append_right _ hc)
      refine ⟨List.forall_mem_append.mpr ⟨hfirst.meets, hmore.meets⟩, fun _ => ?_, fun a rest rest' hrest hfollows => ?_⟩
      · exact List.append_ne_nil_of_left_ne_nil (hfirst.ne_nil (List.cons_ne_nil _ _)) _
      · rw [List.append_assoc]
        exact hfirst.follows a _ _ (fun b hb => hmore.follows b rest rest' hrest hb) hfollows

end

/-- A module whose text says what it holds: each line is read, from its own tokens, as the trees that it holds, each block
holds statements, and each clause continues what stands before it. -/
def Source.Module.Legible (m : Module) : Prop :=
  statementsMeet parsedForm false m.body ∧ follows .nothing m.body = true

end Conformance
