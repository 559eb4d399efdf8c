import Conformance.Proofs.Expansion.Reporting

/-!
# What an error names

An error of an expansion names a part of the text: a name, an argument, a decorator.  `Visit.Blames s v w x notes` says
of a visit that it breaks the rule `w`, that `x` is the part that breaks it, and what is noted beside it.

`Visit.failure?_eq_fault` says that the error of a visit is the one for a rule it breaks, and that its places are those
of the parts it names.
-/

namespace Conformance

open Source SyntaxTree

/-! ## Parts of a text -/

/-- A part of a text that an error names. -/
inductive Subject where
  /-- The name of a definition. -/
  | name (t : Token)
  | expression (t : SyntaxTree)
  /-- An argument, without its comma. -/
  | argument (a : SyntaxTree)
  | decorator (d : Decorator)
  /-- What stands between the parentheses of a function. -/
  | parameters (h : FunctionHead)
  /-- A function, without its decorators. -/
  | function (f : Function)

namespace Subject

/-- The first token of the part.  If there are no parameters, it is the closing parenthesis. -/
def first? : Subject → Option Token
  | name t => some t
  | expression t => t.leaves.head?
  | argument a => (leavesAll (a.children.filter fun c => !c.isOperator ",")).head?
  | decorator d => some d.sign
  | parameters h => (leavesAll h.parameters).tail.head?
  | function f => some (f.head.async.getD f.head.word)

/-- The last token of the part, or the closing parenthesis after parameters. -/
def last? : Subject → Option Token
  | name t => some t
  | expression t => t.leaves.getLast?
  | argument a => (leavesAll (a.children.filter fun c => !c.isOperator ",")).getLast?
  | decorator d => d.expression.leaves.getLast?
  | parameters h => (leavesAll h.parameters).tail.getLast?
  | function f => f.body.lastToken?

/-- Where the part ends, given where its last token is. -/
def stop : Subject → Extent → Position
  | parameters _, e => e.start
  | _, e => e.stop

/-- The stretch of text of the part. -/
def extent? (x : Subject) : Option Extent :=
  x.first?.bind fun first => x.last?.bind fun last =>
    first.extent?.bind fun a => last.extent?.map fun b => ⟨a.start, x.stop b⟩

@[simp] theorem extent?_name (t : Token) : (name t).extent? = t.extent? := by
  cases h : t.extent? with
  | none => simp [extent?, first?, last?, h]
  | some e => simp [extent?, first?, last?, stop, h]

@[simp] theorem extent?_expression (t : SyntaxTree) : (expression t).extent? = t.extent? := by
  simp only [extent?, first?, last?, stop, SyntaxTree.extent?, Option.map_eq_bind]
  rfl

@[simp] theorem extent?_argument (a : SyntaxTree) : (argument a).extent? = a.argumentExtent? := by
  simp only [extent?, first?, last?, stop, SyntaxTree.argumentExtent?, SyntaxTree.extent?, leaves, Option.map_eq_bind]
  rfl

@[simp] theorem extent?_decorator (d : Decorator) : (decorator d).extent? = d.extent? := by
  simp only [extent?, first?, last?, stop, Decorator.extent?, extentBetween?, Option.map_eq_bind]
  rfl

@[simp] theorem extent?_function (f : Function) : (function f).extent? = f.extent? := by
  simp only [extent?, first?, last?, stop, Function.extent?, FunctionHead.extent?, extentBetween?, Option.map_eq_bind]
  rfl

@[simp] theorem extent?_parameters (h : FunctionHead) : (parameters h).extent? = h.parametersExtent? := by
  have hleaves : h.parameters.flatMap leaves = leavesAll h.parameters := by
    induction h.parameters with
    | nil => rfl
    | cons t ts ih => rw [List.flatMap_cons, leavesAll, ih]
  simp only [extent?, first?, last?, stop, FunctionHead.parametersExtent?, hleaves]
  cases leavesAll h.parameters with
  | nil => rfl
  | cons t ts =>
    simp only [List.tail_cons, Option.map_eq_bind]
    rfl

end Subject

/-- The fault for breaking a rule, with the places of the parts that it and its notes name. -/
def Violation.faultAt (w : Violation) (x : Subject) (notes : List (String × Option Subject)) : Fault Extent :=
  w.fault x.extent? (notes.map fun n => (n.1, n.2.bind Subject.extent?))

/-- Reading a rule: it is broken, or what stands behind it is. -/
theorem rule_eq_fault {p : Prop} [Decidable p] {v : Violation} {node : Option Extent} {α β : Type}
    {k : β → Except Failure α} {x : Except Failure α} {e : Fault Extent}
    (h : (if p then violated v node >>= k else x) = .error (.fault e)) :
    (p ∧ e = v.fault node []) ∨ (¬p ∧ x = .error (.fault e)) := by
  by_cases hp : p
  · rw [if_pos hp] at h
    cases h
    exact .inl ⟨hp, rfl⟩
  · rw [if_neg hp] at h
    exact .inr ⟨hp, h⟩

/-! ## Tests -/

/-- A test breaks a rule, and this part of it does. -/
inductive Function.Breaks (aliases : List String) (f : Function) : Violation → Subject → Prop
  | async : f.head.async.isSome = true → Breaks aliases f .asyncTest (.function f)
  | reserved : Naming.reserved.isPrefixOf f.name = true → Breaks aliases f .reservedTestName (.name f.head.name)
  | noBody : (f.prelude.decorators.any marksAbstract || isStub f.body) = true →
      Breaks aliases f .missingTestBody (.function f)
  | parameters : takesType? f.head = none → Breaks aliases f (.testParameters f.name) (.parameters f.head)
  | panicTwice {first second : Decorator} {rest : List Decorator} :
      f.prelude.decorators.filter (Marker.shouldPanic.marks aliases) = first :: second :: rest →
      Breaks aliases f .repeatedShouldPanic (.decorator second)
  | panicForm {d : Decorator} : f.prelude.decorators.filter (Marker.shouldPanic.marks aliases) = [d] →
      d.expression.arguments ≠ [] → Breaks aliases f .shouldPanicForm (.decorator d)
  | panicWithResult {d : Decorator} : f.prelude.decorators.filter (Marker.shouldPanic.marks aliases) = [d] →
      f.head.returns?.isSome = true → Breaks aliases f .panicWithResult (.function f)
  | requirement {d : Decorator} {a : SyntaxTree} : d ∈ f.prelude.decorators →
      Marker.requires.marks aliases d = true → a ∈ d.expression.arguments →
      (∀ value, a.argument? ≠ some (.positional value)) → Breaks aliases f .requiresForm (.argument a)

section
variable {aliases : List String} {f : Function} {e : Fault Extent}

theorem shouldPanic_eq_fault (h : shouldPanic aliases f = .error (.fault e)) :
    ∃ w x, f.Breaks aliases w x ∧ e = w.faultAt x [] := by
  unfold shouldPanic at h
  split at h
  · cases h
  · next d hd =>
    have hform : ∀ {α : Type}, (violated .shouldPanicForm d.extent? : Except Failure α) = .error (.fault e) →
        d.expression.arguments ≠ [] → ∃ w x, f.Breaks aliases w x ∧ e = w.faultAt x [] := by
      intro α hv hne
      cases hv
      exact ⟨_, _, .panicForm hd hne, by simp [Violation.faultAt]⟩
    split at h
    · cases h
    · next a ha =>
      have hne : d.expression.arguments ≠ [] := by
        rw [ha]
        exact List.cons_ne_nil _ _
      split at h
      · cases h
      · split at h
        · cases h
        · exact hform h hne
      · exact hform h hne
    · next hnil _ => exact hform h hnil
  · next first second rest hd =>
    cases h
    exact ⟨_, _, .panicTwice hd, by simp [Violation.faultAt]⟩

/-- A test that must fail has the marker that says so once. -/
theorem shouldPanic_eq_some {expected : Option SyntaxTree} (h : shouldPanic aliases f = .ok (some expected)) :
    ∃ d, f.prelude.decorators.filter (Marker.shouldPanic.marks aliases) = [d] := by
  unfold shouldPanic at h
  split at h
  · cases h
  · next d hd => exact ⟨d, hd⟩
  · cases h

theorem testKind_eq_fault (h : testKind aliases f = .error (.fault e)) :
    ∃ w x, f.Breaks aliases w x ∧ e = w.faultAt x [] := by
  obtain hliteral | ⟨result, hresult, h⟩ := Computation.except_bind_eq_error.mp h
  · cases hr : resultType f.head with
    | error l =>
      rw [hr] at hliteral
      cases hliteral
    | ok r =>
      rw [hr] at hliteral
      cases hliteral
  · obtain hpanic | ⟨panic, hpanic, h⟩ := Computation.except_bind_eq_error.mp h
    · exact shouldPanic_eq_fault hpanic
    · cases panic with
      | none => cases result <;> cases h
      | some expected =>
        cases result with
        | none => cases h
        | some output =>
          cases h
          obtain ⟨d, hd⟩ := shouldPanic_eq_some hpanic
          have hreturns : f.head.returns? = some output := by
            apply returns?_of_resultType
            cases hr : resultType f.head with
            | error l =>
              rw [hr] at hresult
              cases hresult
            | ok r =>
              rw [hr] at hresult
              cases hresult
              rfl
          refine ⟨_, _, .panicWithResult hd (by rw [hreturns]; rfl), ?_⟩
          simp [Violation.faultAt]

theorem requirementsOf_eq_fault (h : requirementsOf aliases f = .error (.fault e)) :
    ∃ w x, f.Breaks aliases w x ∧ e = w.faultAt x [] := by
  obtain ⟨before, a, after, hsplit, -, ha⟩ := Computation.mapM_eq_error.mp h
  obtain ⟨d, hd, hmem⟩ : ∃ d ∈ f.prelude.decorators.filter (Marker.requires.marks aliases),
      a ∈ d.expression.arguments := by
    rw [← List.mem_flatMap, hsplit]
    simp
  obtain ⟨hd, hmarks⟩ := List.mem_filter.mp hd
  unfold requirement at ha
  split at ha
  · cases ha
  · next hpositional =>
    cases ha
    refine ⟨_, _, .requirement hd hmarks hmem hpositional, ?_⟩
    simp [Violation.faultAt]

/-- The error for a test is that for a rule it breaks. -/
theorem AssociatedTest.read_eq_fault (h : AssociatedTest.read aliases f = .error (.fault e)) :
    ∃ w x, f.Breaks aliases w x ∧ e = w.faultAt x [] := by
  unfold AssociatedTest.read at h
  obtain ⟨hasync, rfl⟩ | ⟨-, h⟩ := rule_eq_fault h
  · exact ⟨_, _, .async hasync, by simp [Violation.faultAt]⟩
  obtain ⟨hreserved, rfl⟩ | ⟨-, h⟩ := rule_eq_fault h
  · exact ⟨_, _, .reserved hreserved, by simp [Violation.faultAt]⟩
  obtain ⟨hbody, rfl⟩ | ⟨-, h⟩ := rule_eq_fault h
  · exact ⟨_, _, .noBody hbody, by simp [Violation.faultAt]⟩
  cases htakes : takesType? f.head with
  | none =>
    rw [htakes] at h
    cases h
    exact ⟨_, _, .parameters htakes, by simp [Violation.faultAt]⟩
  | some takesType =>
    rw [htakes] at h
    obtain hkind | ⟨kind, -, h⟩ := Computation.except_bind_eq_error.mp h
    · exact testKind_eq_fault hkind
    · obtain hrequirements | ⟨requirements, -, h⟩ := Computation.except_bind_eq_error.mp h
      · exact requirementsOf_eq_fault hrequirements
      · cases h

end

/-! ## Classes -/

/-- The statements of a block. -/
def Source.Suite.statements : Suite → List Statement
  | .inline .. => []
  | .block _ _ body _ => body

/-- The tests of a class are functions of its block. -/
theorem Class.tests_eq (aliases : List String) (c : Class) :
    c.asBlock.2.body.filterMap (test? aliases) = c.body.statements.filterMap (test? aliases) := by
  obtain ⟨prelude, head, body⟩ := c
  cases body with
  | inline line stop => rfl
  | block opening indent body footer => rfl

theorem test?_eq_some {aliases : List String} {s : Statement} {f : Function} (h : test? aliases s = some f) :
    s = f.statement ∧ f.isTest aliases = true := by
  obtain ⟨hf, htest⟩ := Option.filter_eq_some_iff.mp h
  cases s with
  | ofFunction prelude head body =>
    cases hf
    exact ⟨rfl, htest⟩
  | simple lead body stop => cases hf
  | clause lead head body => cases hf
  | ofClass prelude head body => cases hf

/-- A pair of tests of one name: the first of that name, and a later one. -/
theorem firstDuplicate?_eq_some {seen ts : List AssociatedTest} {first second : AssociatedTest}
    (h : firstDuplicate? seen ts = some (first, second)) :
    first.name = second.name ∧
      ∃ before between after, seen ++ ts = before ++ first :: (between ++ second :: after) := by
  induction ts generalizing seen with
  | nil => cases h
  | cons t ts ih =>
    rw [firstDuplicate?] at h
    split at h
    · next found hfound =>
      cases h
      have hname : first.name = second.name := by simpa using List.find?_some hfound
      obtain ⟨before, between, hseen⟩ := List.append_of_mem (List.mem_of_find?_eq_some hfound)
      exact ⟨hname, before, between, ts, by rw [hseen, List.append_assoc, List.cons_append]⟩
    · obtain ⟨hname, before, between, after, hsplit⟩ := ih h
      exact ⟨hname, before, between, after, by rw [← hsplit, List.append_assoc, List.singleton_append]⟩

/-- The body of a class breaks a rule for interfaces: one of its tests does, or two of them have one name. -/
inductive Source.Suite.BreaksInterface (aliases : List String) (body : Suite) :
    Violation → Subject → List (String × Option Subject) → Prop
  | test {f : Function} {w : Violation} {x : Subject} : f.statement ∈ body.statements → f.isTest aliases = true →
      f.Breaks aliases w x → BreaksInterface aliases body w x []
  | duplicate {f g : Function} {before between after : List Statement} :
      body.statements = before ++ f.statement :: (between ++ g.statement :: after) → f.isTest aliases = true →
      g.isTest aliases = true → f.name = g.name →
      BreaksInterface aliases body (.duplicateTest g.name) (.name g.head.name)
        [("`" ++ g.name ++ "` first defined here", some (.name f.head.name))]

/-- What stands in front of which item of the second of two lists that are related item by item. -/
theorem forall₂_split {α β : Type} {R : α → β → Prop} {xs : List α} {before after : List β} {y : β}
    (h : List.Forall₂ R xs (before ++ y :: after)) :
    ∃ front x rest, xs = front ++ x :: rest ∧ R x y ∧ List.Forall₂ R rest after := by
  induction before generalizing xs with
  | nil =>
    cases h with
    | cons hxy hrest => exact ⟨[], _, _, rfl, hxy, hrest⟩
  | cons z before ih =>
    cases h with
    | cons _ hmore =>
      obtain ⟨front, x, rest, rfl, hxy, hrest⟩ := ih hmore
      exact ⟨_ :: front, x, rest, rfl, hxy, hrest⟩

/-- What is found behind an item that is found stands behind it. -/
theorem filterMap_split {α β : Type} {g : α → Option β} {xs : List α} {before after : List β} {y : β}
    (h : xs.filterMap g = before ++ y :: after) :
    ∃ front x rest, xs = front ++ x :: rest ∧ g x = some y ∧ rest.filterMap g = after := by
  obtain ⟨front, more, rfl, -, hmore⟩ := List.filterMap_eq_append_iff.mp h
  obtain ⟨skipped, x, rest, rfl, -, hx, hrest⟩ := List.filterMap_eq_cons_iff.mp hmore
  exact ⟨front ++ skipped, x, rest, by rw [List.append_assoc], hx, hrest⟩

/-- The error for an interface is that for a rule it breaks. -/
theorem Interface.ofClass_eq_fault {aliases : List String} {c : Class} {e : Fault Extent}
    (h : Interface.ofClass aliases c = .error (.fault e)) :
    ∃ w x notes, c.body.BreaksInterface aliases w x notes ∧ e = w.faultAt x notes := by
  unfold Interface.ofClass at h
  obtain htests | ⟨tests, htests, h⟩ := Computation.except_bind_eq_error.mp h
  · change (c.asBlock.2.body.filterMap (test? aliases)).mapM _ = _ at htests
    rw [Class.tests_eq] at htests
    obtain ⟨before, f, after, hsplit, -, hf⟩ := Computation.mapM_eq_error.mp htests
    obtain ⟨front, s, rest, hstatements, hs, -⟩ := filterMap_split hsplit
    obtain ⟨rfl, htest⟩ := test?_eq_some hs
    obtain ⟨w, x, hbreaks, rfl⟩ := AssociatedTest.read_eq_fault hf
    exact ⟨w, x, [], .test (by rw [hstatements]; simp) htest hbreaks, rfl⟩
  · change (c.asBlock.2.body.filterMap (test? aliases)).mapM _ = _ at htests
    rw [Class.tests_eq] at htests
    split at h
    · next first second hdup =>
      cases h
      obtain ⟨hname, before, between, after, hsplit⟩ := firstDuplicate?_eq_some hdup
      rw [List.nil_append] at hsplit
      have haccepted := (Computation.mapM_eq_ok htests).imp fun _ _ => AssociatedTest.read_eq_ok
      rw [hsplit] at haccepted
      -- the two tests and the functions they were read from
      obtain ⟨_, f, fs, hfs, hf, hmore⟩ := forall₂_split haccepted
      obtain ⟨_, g, gs, rfl, hg, -⟩ := forall₂_split hmore
      obtain ⟨front, s, rest, hstatements, hs, hrest⟩ := filterMap_split hfs
      obtain ⟨middle, s', rest', rfl, hs', -⟩ := filterMap_split hrest
      obtain ⟨rfl, hftest⟩ := test?_eq_some hs
      obtain ⟨rfl, hgtest⟩ := test?_eq_some hs'
      have hnames : f.name = g.name := by rw [← hf.name, ← hg.name, hname]
      refine ⟨_, _, _, .duplicate hstatements hftest hgtest hnames, ?_⟩
      simp [Violation.faultAt, hf.function, hg.function, hg.name]
    · cases h

/-- The head of a class breaks a rule for implementations under a marker with the arguments `args`. -/
inductive Source.ClassHead.BreaksImplementation (typeVariables : List String) (args : List SyntaxTree) (h : ClassHead) :
    Violation → Subject → List (String × Option Subject) → Prop
  | noPair {a : SyntaxTree} : a ∈ args → Instantiation.ofArgument? a = none →
      BreaksImplementation typeVariables args h .pairForm (.argument a) []
  | negative {base : SyntaxTree} {sign : Token} {operand : List SyntaxTree} : .positional base ∈ h.bases →
      base.core = .node .unary (.leaf sign :: operand) → sign.text = "~" →
      BreaksImplementation typeVariables args h .negativeImplementation (.expression base.core) []
  | noInterface {a : Ancestry} : Ancestry.ofHead typeVariables h = .ok a → a.interface = none →
      BreaksImplementation typeVariables args h .notImplementation (.name h.name)
        [("the implemented interface must be listed as a base class", none)]
  | unexpectedPairs {a : Ancestry} {first : SyntaxTree} {rest : List SyntaxTree} :
      Ancestry.ofHead typeVariables h = .ok a → a.parameters = [] → args = first :: rest →
      BreaksImplementation typeVariables args h .unexpectedPairs (.argument first) []
  | missingPairs {a : Ancestry} {interface : SyntaxTree} : Ancestry.ofHead typeVariables h = .ok a →
      a.interface = some interface → a.parameters ≠ [] → args = [] →
      BreaksImplementation typeVariables args h (.missingPairs h.name.text a.parameters interface.code) (.name h.name)
        [("associated tests for this generic implementation can only be instantiated for concrete types", none)]

section
variable {typeVariables : List String} {args : List SyntaxTree} {h : ClassHead} {e : Fault Extent}

theorem instantiations_eq_fault (hr : instantiations args = .error (.fault e)) :
    ∃ w x notes, h.BreaksImplementation typeVariables args w x notes ∧ e = w.faultAt x notes := by
  obtain ⟨before, a, after, rfl, -, ha⟩ := Computation.mapM_eq_error.mp hr
  split at ha
  · cases ha
  · next hnone =>
    cases ha
    refine ⟨_, _, _, .noPair (a := a) (by simp) hnone, ?_⟩
    simp [Violation.faultAt]

/-- The only base that is refused is a negated one. -/
theorem Ancestry.add_eq_fault {a : Ancestry} {base : SyntaxTree}
    (hr : Ancestry.add typeVariables a base = .error (.fault e)) :
    ∃ sign operand, base.core = .node .unary (.leaf sign :: operand) ∧ sign.text = "~" ∧
      e = Violation.negativeImplementation.faultAt (.expression base.core) [] := by
  unfold Ancestry.add at hr
  dsimp only at hr
  split at hr
  · next sign operand hcore =>
    split_ifs at hr with hsign
    cases hr
    exact ⟨sign, operand, hcore, by simpa using hsign, by simp [Violation.faultAt, hcore]⟩
  · split_ifs at hr
  · split_ifs at hr

/-- A loop that fails does so at one of its items. -/
theorem Computation.foldlM_eq_error {α β ε : Type} {f : β → α → Except ε β} {xs : List α} {b : β} {e : ε}
    (hr : xs.foldlM f b = .error e) : ∃ x ∈ xs, ∃ b', f b' x = .error e := by
  induction xs generalizing b with
  | nil => cases hr
  | cons x xs ih =>
    rw [List.foldlM_cons] at hr
    obtain hx | ⟨b', -, hxs⟩ := Computation.except_bind_eq_error.mp hr
    · exact ⟨x, List.mem_cons_self, b, hx⟩
    · obtain ⟨y, hy, hfail⟩ := ih hxs
      exact ⟨y, List.mem_cons_of_mem _ hy, hfail⟩

theorem Ancestry.ofHead_eq_fault (hr : Ancestry.ofHead typeVariables h = .error (.fault e)) :
    ∃ w x notes, h.BreaksImplementation typeVariables args w x notes ∧ e = w.faultAt x notes := by
  obtain ⟨base, hbase, a, hadd⟩ := Computation.foldlM_eq_error hr
  obtain ⟨sign, operand, hcore, hsign, rfl⟩ := Ancestry.add_eq_fault hadd
  obtain ⟨b, hb, hvalue⟩ := List.mem_filterMap.mp hbase
  cases b with
  | positional value =>
    cases hvalue
    exact ⟨_, _, _, .negative hb hcore hsign, rfl⟩
  | _ => cases hvalue

/-- Instantiations are refused for a class without type parameters, and required for one with type parameters. -/
theorem resolve_eq_fault {c : Class} {listed : List Instantiation} {a : Ancestry} {interface : SyntaxTree}
    (hlisted : instantiations args = .ok listed) (ha : Ancestry.ofHead typeVariables c.head = .ok a)
    (hinterface : a.interface = some interface)
    (hr : resolve c args listed interface a.parameters = .error (.fault e)) :
    ∃ w x notes, c.head.BreaksImplementation typeVariables args w x notes ∧ e = w.faultAt x notes := by
  have hlength := (Computation.mapM_eq_ok hlisted).length_eq
  cases hparameters : a.parameters with
  | nil =>
    rw [hparameters] at hr
    cases listed with
    | nil => cases hr
    | cons i listed =>
      cases hr
      cases args with
      | nil => simp at hlength
      | cons first rest => exact ⟨_, _, _, .unexpectedPairs ha hparameters rfl, by simp [Violation.faultAt]⟩
  | cons parameter parameters =>
    have hne : a.parameters ≠ [] := by
      rw [hparameters]
      exact List.cons_ne_nil _ _
    cases listed with
    | nil =>
      have hargs : args = [] := List.length_eq_zero_iff.mp hlength
      refine ⟨_, _, _, .missingPairs ha hinterface hne hargs, ?_⟩
      rw [hparameters] at hr ⊢
      cases hr
      simp [Violation.faultAt, Class.name]
    | cons i listed =>
      rw [hparameters] at hr
      cases hr

end

/-- The error for an implementation is that for a rule it breaks. -/
theorem Implementation.read_eq_fault {aliases typeVariables : List String} {args : List SyntaxTree} {c : Class}
    {e : Fault Extent} (hr : Implementation.read aliases typeVariables args c.statement = .error (.fault e)) :
    ∃ w x notes, c.head.BreaksImplementation typeVariables args w x notes ∧ e = w.faultAt x notes := by
  change (Conformance.instantiations args >>= _) = _ at hr
  obtain hr | ⟨listed, hlisted, hr⟩ := Computation.except_bind_eq_error.mp hr
  · exact instantiations_eq_fault hr
  obtain hr | ⟨a, hancestry, hr⟩ := Computation.except_bind_eq_error.mp hr
  · exact Ancestry.ofHead_eq_fault hr
  cases hinterface : a.interface with
  | none =>
    rw [hinterface] at hr
    cases hr
    exact ⟨_, _, _, .noInterface hancestry hinterface, by simp [Violation.faultAt]⟩
  | some interface =>
    rw [hinterface] at hr
    obtain hr | ⟨_, -, hr⟩ := Computation.except_bind_eq_error.mp hr
    · exact resolve_eq_fault hlisted hancestry hinterface hr
    · cases hr

/-! ## Visits -/

/-- A visit breaks a rule, this part of the text does, and these notes stand beside it. -/
inductive Visit.Blames (s : Surroundings) : Visit → Violation → Subject → List (String × Option Subject) → Prop
  | markedTwice {around : List Class} {c : Class} {first second : Decorator} {rest : List Decorator} :
      entryDecorators s.settings.aliases c.prelude.decorators = first :: second :: rest →
      Blames s (.enterClass around c) .repeatedMarker (.decorator second) []
  | nested {around : List Class} {c : Class} {d : Decorator} :
      entryDecorators s.settings.aliases c.prelude.decorators = [d] →
      around.any (Class.isMarked s.settings.aliases) = true →
      Blames s (.enterClass around c) (.nestedMarker (entryMarker s.settings.aliases d).word) (.decorator d) []
  | functionMarkedTwice {f : Function} {first second : Decorator} {rest : List Decorator} :
      entryDecorators s.settings.aliases f.prelude.decorators = first :: second :: rest →
      Blames s (.enterFunction f) .repeatedMarker (.decorator second) []
  | functionArguments {f : Function} {d : Decorator} {first : SyntaxTree} {rest : List SyntaxTree} :
      entryDecorators s.settings.aliases f.prelude.decorators = [d] →
      entryMarker s.settings.aliases d = .interface → d.expression.arguments = first :: rest →
      Blames s (.enterFunction f) .interfaceArguments (.argument first) []
  | functionInterface {f : Function} {d : Decorator} :
      entryDecorators s.settings.aliases f.prelude.decorators = [d] →
      entryMarker s.settings.aliases d = .interface → d.expression.arguments = [] →
      Blames s (.enterFunction f) .notInterface (.function f) []
  | functionImplementation {f : Function} {d : Decorator} :
      entryDecorators s.settings.aliases f.prelude.decorators = [d] →
      entryMarker s.settings.aliases d ≠ .interface →
      Blames s (.enterFunction f) .notImplementation (.function f) []
  | arguments {c : Class} {d : Decorator} {rest : List Decorator} {first : SyntaxTree} {more : List SyntaxTree} :
      entryDecorators s.settings.aliases c.prelude.decorators = d :: rest →
      entryMarker s.settings.aliases d = .interface → d.expression.arguments = first :: more →
      Blames s (.leaveClass c) .interfaceArguments (.argument first) []
  | interface {c : Class} {d : Decorator} {rest : List Decorator} {w : Violation} {x : Subject}
      {notes : List (String × Option Subject)} :
      entryDecorators s.settings.aliases c.prelude.decorators = d :: rest →
      entryMarker s.settings.aliases d = .interface → d.expression.arguments = [] →
      c.body.BreaksInterface s.settings.aliases w x notes → Blames s (.leaveClass c) w x notes
  | implementation {c : Class} {d : Decorator} {rest : List Decorator} {w : Violation} {x : Subject}
      {notes : List (String × Option Subject)} :
      entryDecorators s.settings.aliases c.prelude.decorators = d :: rest →
      entryMarker s.settings.aliases d ≠ .interface →
      c.head.BreaksImplementation s.typeVariables d.expression.arguments w x notes →
      Blames s (.leaveClass c) w x notes

/-- The fault for breaking a rule inside a definition, with spans. -/
def Violation.faultIn (s : Surroundings) (definition : Option Extent) (w : Violation) (x : Subject)
    (notes : List (String × Option Subject)) : Fault Extent :=
  (w.faultAt x notes).locate (fun e => some (s.span e)) (definition.map s.span)

section
variable {s : Surroundings} {e : Fault Extent}

/-- A class that cannot be expanded breaks a rule of its marker. -/
theorem Class.verdict_eq_fault {c : Class} {d : Decorator} {rest : List Decorator}
    (hd : entryDecorators s.settings.aliases c.prelude.decorators = d :: rest)
    (hr : c.verdict s (entryMarker s.settings.aliases d) d = .error (.fault e)) :
    ∃ w x notes, (Visit.leaveClass c).Blames s w x notes ∧ e = w.faultAt x notes := by
  by_cases hmarker : entryMarker s.settings.aliases d = .interface
  · rw [hmarker, Class.verdict, ← failureOf?_eq_some, failureOf?_discard, failureOf?_eq_some] at hr
    obtain hr | ⟨_, -, hr⟩ := Computation.except_bind_eq_error.mp hr
    · cases hargs : d.expression.arguments with
      | nil =>
        rw [hargs] at hr
        obtain ⟨w, x, notes, hbreaks, rfl⟩ := Interface.ofClass_eq_fault hr
        exact ⟨w, x, notes, .interface hd hmarker hargs hbreaks, rfl⟩
      | cons first more =>
        rw [hargs] at hr
        cases hr
        exact ⟨_, _, _, .arguments hd hmarker hargs, by simp [Violation.faultAt]⟩
    · cases hr
  · have hverdict : c.verdict s (entryMarker s.settings.aliases d) d =
        discard (Implementation.read s.settings.aliases s.typeVariables d.expression.arguments
          (c.unmarked s.settings.aliases).statement) := by
      cases hm : entryMarker s.settings.aliases d with
      | interface => exact absurd hm hmarker
      | _ => rfl
    rw [hverdict, ← failureOf?_eq_some, failureOf?_discard, failureOf?_eq_some] at hr
    obtain ⟨w, x, notes, hbreaks, rfl⟩ := Implementation.read_eq_fault hr
    exact ⟨w, x, notes, .implementation hd hmarker hbreaks, rfl⟩

/-- What a visit is blamed with is the fault for a rule it breaks. -/
theorem Visit.failure?_eq_fault {v : Visit} (h : v.failure? s = some (.fault e)) :
    ∃ w x notes definition, v.Blames s w x notes ∧ e = w.faultIn s definition x notes := by
  cases v with
  | enterClass around c =>
    rw [failure?] at h
    split at h
    · cases h
    · next d hd =>
      split_ifs at h with haround
      cases h
      refine ⟨_, _, _, c.extent?, .nested hd haround, ?_⟩
      simp [Violation.faultIn, Violation.faultAt]
    · next first second rest hd =>
      cases h
      refine ⟨_, _, _, c.extent?, .markedTwice hd, ?_⟩
      simp [Violation.faultIn, Violation.faultAt]
  | enterFunction f =>
    rw [failure?] at h
    split at h
    · cases h
    · next d hd =>
      rw [functionFailure] at h
      split at h
      · next hmarker hargs =>
        cases h
        refine ⟨_, _, _, f.extent?, .functionArguments hd hmarker hargs, ?_⟩
        simp [Violation.faultIn, Violation.faultAt]
      · next hmarker hargs =>
        cases h
        refine ⟨_, _, _, f.extent?, .functionInterface hd hmarker hargs, ?_⟩
        simp [Violation.faultIn, Violation.faultAt]
      · next hfirst hnone =>
        cases h
        have hmarker : entryMarker s.settings.aliases d ≠ .interface := by
          intro hmarker
          cases hargs : d.expression.arguments with
          | nil => exact hnone hmarker hargs
          | cons first more => exact hfirst first more hmarker hargs
        refine ⟨_, _, _, f.extent?, .functionImplementation hd hmarker, ?_⟩
        simp [Violation.faultIn, Violation.faultAt]
    · next first second rest hd =>
      cases h
      refine ⟨_, _, _, f.extent?, .functionMarkedTwice hd, ?_⟩
      simp [Violation.faultIn, Violation.faultAt]
  | leaveClass c =>
    rw [failure?] at h
    split at h
    · cases h
    · next d rest hd =>
      obtain ⟨failure, hverdict, hlocated⟩ := Option.map_eq_some_iff.mp h
      cases failure with
      | literal l => cases hlocated
      | fault f =>
        cases hlocated
        obtain ⟨w, x, notes, hblames, rfl⟩ := Class.verdict_eq_fault hd (failureOf?_eq_some.mp hverdict)
        exact ⟨w, x, notes, c.extent?, hblames, rfl⟩

end

end Conformance
