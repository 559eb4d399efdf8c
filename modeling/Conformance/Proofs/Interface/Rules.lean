import Conformance.Proofs.Expansion.Blame

/-!
# Rules for a test

The rules for a test are given one by one: what it means to keep one (`Function.Keeps`), and what is reported if one
is broken and which part of the test is named (`Function.Breach`).

A check stands for a list of rules (`Checks`): it passes if all of them are kept, and otherwise it reports the first
that is broken.  Checks can be carried out one after the other (`Checks.bind`), and reading a test is a check for all
rules in their order (`AssociatedTest.read_checks`).
-/

namespace Conformance

open Source

/-! ## Rules for a test -/

/-- The rules for an associated test. -/
inductive TestRule where
  /-- It is not `async`. -/
  | notAsync
  /-- Its name does not start like those of generated code. -/
  | ownName
  /-- It is neither abstract nor a stub. -/
  | body
  /-- It has at most one parameter, which can be given by position. -/
  | parameters
  /-- It is marked to fail at most once, and in one of three forms. -/
  | panicMarker
  /-- It does not both fail and return a result. -/
  | oneKind
  /-- What it requires is given by position. -/
  | requirements
  deriving DecidableEq, Repr

/-- The rules in the order in which they are looked at. -/
def TestRule.inOrder : List TestRule :=
  [notAsync, ownName, body, parameters, panicMarker, oneKind, requirements]

/-- Nothing but `...`, perhaps after a string. -/
inductive Source.Suite.Stub (b : Suite) : Prop
  | alone {s : SyntaxTree} : b.smallStatements? = some [s] → isEllipsis s = true → Stub b
  | documented {d s : SyntaxTree} : b.smallStatements? = some [d, s] → isDocumentation d = true →
      isEllipsis s = true → Stub b

/-- The annotation of a function without a result: `None`, also in quotes. -/
def Source.SyntaxTree.MeansNothing (hint : SyntaxTree) : Prop :=
  ∃ t, hint.core = .leaf t ∧
    (t.kind = .name ∧ t.text = "None" ∨
      t.kind = .string ∧ Literal.evaluate t.text = .ok (.text ("None".toList.map Char.toNat)))

/-- The function is annotated with a result. -/
def Source.FunctionHead.ReturnsResult (h : FunctionHead) : Prop :=
  ∃ hint, h.returns? = some hint ∧ ¬ hint.MeansNothing

/-- The forms in which a test is marked to fail: with nothing in parentheses or none at all, with the expected text by
position, and with the expected text by keyword. -/
inductive Source.Decorator.PanicForm (d : Decorator) : Prop
  | alone : d.expression.arguments = [] → PanicForm d
  | positional {a value : SyntaxTree} : d.expression.arguments = [a] → a.argument? = some (.positional value) →
      PanicForm d
  | expected {a value : SyntaxTree} {name : Token} : d.expression.arguments = [a] →
      a.argument? = some (.keyword name value) → name.text = "expected" → PanicForm d

namespace Function

/-- The markers that say that a test has to fail. -/
def panicMarkers (aliases : List String) (f : Function) : List Decorator :=
  f.prelude.decorators.filter (Marker.shouldPanic.marks aliases)

/-- The arguments of all markers that say what a test requires. -/
def required (aliases : List String) (f : Function) : List SyntaxTree :=
  (f.prelude.decorators.filter (Marker.requires.marks aliases)).flatMap fun d => d.expression.arguments

/-- The test keeps a rule. -/
def Keeps (aliases : List String) (f : Function) : TestRule → Prop
  | .notAsync => f.head.async = none
  | .ownName => Naming.reserved.isPrefixOf f.name = false
  | .body => (∀ d ∈ f.prelude.decorators, marksAbstract d = false) ∧ ¬ f.body.Stub
  | .parameters => (∀ p ∈ f.head.parameters, isStarParameter p = false) ∧
      (f.head.parameters.filter isPlainParameter).length ≤ 1
  | .panicMarker => f.panicMarkers aliases = [] ∨ ∃ d, f.panicMarkers aliases = [d] ∧ d.PanicForm
  | .oneKind => f.panicMarkers aliases = [] ∨ ¬ f.head.ReturnsResult
  | .requirements => ∀ a ∈ f.required aliases, ∃ value, a.argument? = some (.positional value)

/-- The test keeps all rules. -/
def WellFormed (aliases : List String) (f : Function) : Prop :=
  ∀ r ∈ TestRule.inOrder, f.Keeps aliases r

/-- The test breaks a rule; this is reported, and this part of the test is named. -/
inductive Breach (aliases : List String) (f : Function) : TestRule → Violation → Subject → Prop
  | async : f.head.async ≠ none → Breach aliases f .notAsync .asyncTest (.function f)
  | reserved : Naming.reserved.isPrefixOf f.name = true →
      Breach aliases f .ownName .reservedTestName (.name f.head.name)
  | abstract {d : Decorator} : d ∈ f.prelude.decorators → marksAbstract d = true →
      Breach aliases f .body .missingTestBody (.function f)
  | stub : f.body.Stub → Breach aliases f .body .missingTestBody (.function f)
  | star {p : SyntaxTree} : p ∈ f.head.parameters → isStarParameter p = true →
      Breach aliases f .parameters (.testParameters f.name) (.parameters f.head)
  | several : 1 < (f.head.parameters.filter isPlainParameter).length →
      Breach aliases f .parameters (.testParameters f.name) (.parameters f.head)
  | panicTwice {first second : Decorator} {rest : List Decorator} :
      f.panicMarkers aliases = first :: second :: rest →
      Breach aliases f .panicMarker .repeatedShouldPanic (.decorator second)
  | panicForm {d : Decorator} : f.panicMarkers aliases = [d] → ¬ d.PanicForm →
      Breach aliases f .panicMarker .shouldPanicForm (.decorator d)
  | panicWithResult : f.panicMarkers aliases ≠ [] → f.head.ReturnsResult →
      Breach aliases f .oneKind .panicWithResult (.function f)
  | requirement {before after : List SyntaxTree} {a : SyntaxTree} : f.required aliases = before ++ a :: after →
      (∀ b ∈ before, ∃ value, b.argument? = some (.positional value)) →
      (∀ value, a.argument? ≠ some (.positional value)) →
      Breach aliases f .requirements .requiresForm (.argument a)

/-- The first of the rules that the test breaks. -/
def FirstBreach (aliases : List String) (f : Function) (rules : List TestRule) (w : Violation) (x : Subject) : Prop :=
  ∃ before r after, rules = before ++ r :: after ∧ (∀ q ∈ before, f.Keeps aliases q) ∧ f.Breach aliases r w x

end Function

/-! ## Checks -/

section
variable {aliases : List String} {f : Function} {α β : Type}

theorem Function.firstBreach_cons {r : TestRule} {rules : List TestRule} {w : Violation} {x : Subject} :
    f.FirstBreach aliases (r :: rules) w x ↔
      f.Breach aliases r w x ∨ f.Keeps aliases r ∧ f.FirstBreach aliases rules w x := by
  constructor
  · rintro ⟨before, q, after, hsplit, hkept, hbroken⟩
    cases before with
    | nil =>
      cases hsplit
      exact .inl hbroken
    | cons first before =>
      cases hsplit
      obtain ⟨hfirst, hkept⟩ := List.forall_mem_cons.mp hkept
      exact .inr ⟨hfirst, before, q, after, rfl, hkept, hbroken⟩
  · rintro (hbroken | ⟨hfirst, before, q, after, rfl, hkept, hbroken⟩)
    · exact ⟨[], r, rules, rfl, by simp, hbroken⟩
    · exact ⟨r :: before, q, after, rfl, List.forall_mem_cons.mpr ⟨hfirst, hkept⟩, hbroken⟩

theorem Function.firstBreach_append {rules more : List TestRule} {w : Violation} {x : Subject} :
    f.FirstBreach aliases (rules ++ more) w x ↔
      f.FirstBreach aliases rules w x ∨ (∀ r ∈ rules, f.Keeps aliases r) ∧ f.FirstBreach aliases more w x := by
  induction rules with
  | nil => simp [FirstBreach]
  | cons r rules ih =>
    rw [List.cons_append, firstBreach_cons, ih, firstBreach_cons, List.forall_mem_cons]
    tauto

/-- A check for some rules: it passes if they are all kept, and otherwise reports the first that is broken. -/
structure Checks (aliases : List String) (f : Function) (rules : List TestRule) (x : Except Failure α) : Prop where
  passes : (∃ a, x = .ok a) ↔ ∀ r ∈ rules, f.Keeps aliases r
  reports : ∀ e, x = .error e ↔ ∃ w s, f.FirstBreach aliases rules w s ∧ e = .fault (w.faultAt s [])

theorem Checks.ok (a : α) : Checks aliases f [] (.ok a : Except Failure α) where
  passes := by simp
  reports := by simp [Function.FirstBreach]

/-- Checks that are carried out one after the other. -/
theorem Checks.bind {rules more : List TestRule} {x : Except Failure α} {k : α → Except Failure β}
    (hx : Checks aliases f rules x) (hk : ∀ a, x = .ok a → Checks aliases f more (k a)) :
    Checks aliases f (rules ++ more) (x >>= k) where
  passes := by
    rw [List.forall_mem_append, ← hx.passes]
    constructor
    · rintro ⟨b, hb⟩
      obtain ⟨a, ha, hka⟩ := Computation.except_bind_eq_ok hb
      exact ⟨⟨a, ha⟩, (hk a ha).passes.mp ⟨b, hka⟩⟩
    · rintro ⟨⟨a, ha⟩, hmore⟩
      obtain ⟨b, hb⟩ := (hk a ha).passes.mpr hmore
      exact ⟨b, by rw [ha]; exact hb⟩
  reports e := by
    simp only [Computation.except_bind_eq_error, Function.firstBreach_append, or_and_right, exists_or, ← hx.passes]
    refine or_congr (hx.reports e) ⟨?_, ?_⟩
    · rintro ⟨a, ha, hka⟩
      obtain ⟨w, s, hbreach, he⟩ := ((hk a ha).reports e).mp hka
      exact ⟨w, s, ⟨⟨a, ha⟩, hbreach⟩, he⟩
    · rintro ⟨w, s, ⟨⟨a, ha⟩, hbreach⟩, he⟩
      exact ⟨a, ha, ((hk a ha).reports e).mpr ⟨w, s, hbreach, he⟩⟩

theorem Checks.single {r : TestRule} {x : Except Failure α} (hpass : (∃ a, x = .ok a) ↔ f.Keeps aliases r)
    (hreport : ∀ e, x = .error e ↔ ∃ w s, f.Breach aliases r w s ∧ e = .fault (w.faultAt s [])) :
    Checks aliases f [r] x where
  passes := by simpa using hpass
  reports := by
    have hnil : ∀ w s, ¬ f.FirstBreach aliases [] w s := by simp [Function.FirstBreach]
    simpa [Function.firstBreach_cons, hnil] using hreport

/-- A rule that is kept need not be looked at. -/
theorem Checks.kept {r : TestRule} {rules : List TestRule} {x : Except Failure α} (hkeeps : f.Keeps aliases r)
    (hbreach : ∀ w s, ¬ f.Breach aliases r w s) (hx : Checks aliases f rules x) : Checks aliases f (r :: rules) x where
  passes := by simpa [hkeeps] using hx.passes
  reports := by simpa [Function.firstBreach_cons, hkeeps, hbreach] using hx.reports

/-- A rule that is broken is reported, whatever rules come after it. -/
theorem Checks.broken {r : TestRule} {rules : List TestRule} {v : Violation} {s : Subject} {x : Except Failure α}
    (hx : x = violated v s.extent?) (hkeeps : ¬ f.Keeps aliases r)
    (hbreach : ∀ w t, f.Breach aliases r w t ↔ w = v ∧ t = s) : Checks aliases f (r :: rules) x where
  passes := by simp [hx, violated, hkeeps]
  reports e := by
    simp only [hx, Function.firstBreach_cons, hkeeps, false_and, or_false, hbreach]
    constructor
    · intro h
      cases h
      exact ⟨v, s, ⟨rfl, rfl⟩, rfl⟩
    · rintro ⟨w, t, ⟨rfl, rfl⟩, rfl⟩
      rfl

/-- A check that refuses a test for one reason, and then goes on. -/
theorem Checks.guard {r : TestRule} {rules : List TestRule} {p : Prop} [Decidable p] {v : Violation} {s : Subject}
    {node : Option Extent} {k : β → Except Failure α} {x : Except Failure α} (hnode : s.extent? = node)
    (hkeeps : f.Keeps aliases r ↔ ¬p) (hbreach : ∀ w t, f.Breach aliases r w t ↔ p ∧ w = v ∧ t = s)
    (hx : Checks aliases f rules x) :
    Checks aliases f (r :: rules) (if p then violated v node >>= k else x) := by
  by_cases hp : p
  · rw [if_pos hp, ← hnode]
    exact .broken rfl (by simpa [hkeeps] using hp) (by simpa [hp] using hbreach)
  · rw [if_neg hp]
    exact .kept (hkeeps.mpr hp) (by simp [hbreach, hp]) hx

end

/-! ## Reading a test -/

theorem isDocumentation_of_isEllipsis {s : SyntaxTree} (h : isEllipsis s = true) : isDocumentation s = false := by
  unfold isEllipsis at h
  split at h
  · next e =>
    cases hcore : e.core with
    | leaf t =>
      rw [hcore, SyntaxTree.isOperator, Bool.and_eq_true, beq_iff_eq] at h
      simp [isDocumentation, hcore, h.1]
    | node k cs =>
      rw [hcore] at h
      cases h
  · cases h

theorem isStub_iff (b : Suite) : isStub b = true ↔ b.Stub := by
  constructor
  · intro h
    unfold isStub at h
    split at h
    · cases h
    · next small hsmall =>
      rcases small with _ | ⟨d, _ | ⟨s, _ | ⟨t, rest⟩⟩⟩
      · cases h
      · cases hdoc : isDocumentation d with
        | true => simp [hdoc] at h
        | false => exact .alone hsmall (by simpa [hdoc] using h)
      · cases hdoc : isDocumentation d with
        | true => exact .documented hsmall hdoc (by simpa [hdoc] using h)
        | false => simp [hdoc] at h
      · cases hdoc : isDocumentation d <;> simp [hdoc] at h
  · rintro (⟨hsmall, hellipsis⟩ | ⟨hsmall, hdoc, hellipsis⟩)
    · simp [isStub, hsmall, isDocumentation_of_isEllipsis hellipsis, hellipsis]
    · simp [isStub, hsmall, hdoc, hellipsis]

/-- An annotation that has a value says whether there is a result. -/
theorem resultType_eq_ok {h : FunctionHead} {result : Option SyntaxTree} (hr : resultType h = .ok result) :
    result.isSome = true ↔ h.ReturnsResult := by
  unfold resultType at hr
  cases hreturns : h.returns? with
  | none =>
    rw [hreturns] at hr
    cases hr
    simp [FunctionHead.ReturnsResult, hreturns]
  | some hint =>
    rw [hreturns] at hr
    dsimp only at hr
    have hresult : h.ReturnsResult ↔ ¬ hint.MeansNothing := by simp [FunctionHead.ReturnsResult, hreturns]
    rw [hresult]
    split at hr
    · next t hcore =>
      have hnothing : hint.MeansNothing ↔ t.kind = .name ∧ t.text = "None" ∨
          t.kind = .string ∧ Literal.evaluate t.text = .ok (.text ("None".toList.map Char.toNat)) := by
        simp [SyntaxTree.MeansNothing, hcore]
      rw [hnothing]
      split_ifs at hr with hname hstring
      · cases hr
        simp only [Bool.and_eq_true, beq_iff_eq] at hname
        simp [hname]
      · rw [beq_iff_eq] at hstring
        obtain ⟨value, hvalue, hr⟩ := Computation.except_bind_eq_ok hr
        simp only [hstring, hvalue, reduceCtorEq, false_and, true_and, false_or, Except.ok.injEq]
        by_cases htext : (value == .text ("None".toList.map Char.toNat)) = true
        · rw [if_pos htext] at hr
          cases hr
          simpa using htext
        · rw [if_neg htext] at hr
          cases hr
          simpa using htext
      · cases hr
        simp_all
    · next hleaf =>
      cases hr
      simpa [SyntaxTree.MeansNothing] using fun t hcore => absurd hcore (hleaf t)

section
variable {aliases : List String} {f : Function}

theorem panicForm_one {d : Decorator} {a : SyntaxTree} (hargs : d.expression.arguments = [a]) :
    d.PanicForm ↔ (∃ value, a.argument? = some (.positional value)) ∨
      ∃ name value, a.argument? = some (.keyword name value) ∧ name.text = "expected" := by
  constructor
  · rintro (hnone | ⟨hone, hvalue⟩ | ⟨hone, hvalue, hname⟩)
    · simp [hargs] at hnone
    · obtain rfl : a = _ := by simpa [hargs] using hone
      exact .inl ⟨_, hvalue⟩
    · obtain rfl : a = _ := by simpa [hargs] using hone
      exact .inr ⟨_, _, hvalue, hname⟩
  · rintro (⟨value, hvalue⟩ | ⟨name, value, hvalue, hname⟩)
    · exact .positional hargs hvalue
    · exact .expected hargs hvalue hname

/-- What the markers that a test has to fail are read as. -/
theorem shouldPanic_cases (aliases : List String) (f : Function) :
    (f.panicMarkers aliases = [] ∧ shouldPanic aliases f = .ok none) ∨
    (∃ d expected, f.panicMarkers aliases = [d] ∧ d.PanicForm ∧ shouldPanic aliases f = .ok (some expected)) ∨
    (∃ d, f.panicMarkers aliases = [d] ∧ ¬ d.PanicForm ∧
      shouldPanic aliases f = violated .shouldPanicForm d.extent?) ∨
    ∃ d second rest, f.panicMarkers aliases = d :: second :: rest ∧
      shouldPanic aliases f = violated .repeatedShouldPanic second.extent? := by
  unfold shouldPanic
  rw [← Function.panicMarkers]
  rcases f.panicMarkers aliases with _ | ⟨d, _ | ⟨second, rest⟩⟩
  · exact .inl ⟨rfl, rfl⟩
  · dsimp only
    rcases hargs : d.expression.arguments with _ | ⟨a, _ | ⟨b, rest⟩⟩
    · exact .inr (.inl ⟨d, none, rfl, .alone hargs, rfl⟩)
    · simp only [List.cons.injEq, and_true, exists_and_left, exists_eq_left', panicForm_one hargs, reduceCtorEq,
        false_and, false_or]
      cases ha : a.argument? with
      | none => simp
      | some argument =>
        cases argument with
        | keyword name value => by_cases hname : name.text = "expected" <;> simp [hname]
        | _ => simp
    · refine .inr (.inr (.inl ⟨d, rfl, ?_, rfl⟩))
      rintro (hnone | ⟨hone, -⟩ | ⟨hone, -, -⟩) <;> simp_all
  · exact .inr (.inr (.inr ⟨d, second, rest, rfl, rfl⟩))

theorem shouldPanic_checks : Checks aliases f [.panicMarker] (shouldPanic aliases f) := by
  obtain ⟨hmarkers, hread⟩ | ⟨d, expected, hmarkers, hform, hread⟩ | ⟨d, hmarkers, hform, hread⟩ |
    ⟨d, second, rest, hmarkers, hread⟩ := shouldPanic_cases aliases f
  · rw [hread]
    refine .kept (.inl hmarkers) (fun w s hbreach => ?_) (.ok _)
    cases hbreach <;> simp_all
  · rw [hread]
    refine .kept (.inr ⟨d, hmarkers, hform⟩) (fun w s hbreach => ?_) (.ok _)
    cases hbreach <;> simp_all
  · refine .broken (s := .decorator d) (by simpa using hread) ?_ ?_
    · simpa [Function.Keeps, hmarkers] using hform
    · intro w t
      constructor
      · intro hbreach
        cases hbreach <;> simp_all
      · rintro ⟨rfl, rfl⟩
        exact .panicForm hmarkers hform
  · refine .broken (s := .decorator second) (by simpa using hread) ?_ ?_
    · simp [Function.Keeps, hmarkers]
    · intro w t
      constructor
      · intro hbreach
        cases hbreach <;> simp_all
      · rintro ⟨rfl, rfl⟩
        exact .panicTwice hmarkers

theorem shouldPanic_eq_none {panic : Option (Option SyntaxTree)} (h : shouldPanic aliases f = .ok panic) :
    panic = none ↔ f.panicMarkers aliases = [] := by
  obtain ⟨hmarkers, hread⟩ | ⟨d, expected, hmarkers, -, hread⟩ | ⟨d, -, -, hread⟩ | ⟨d, second, rest, -, hread⟩ :=
    shouldPanic_cases aliases f
  · cases hread.symm.trans h
    simp [hmarkers]
  · cases hread.symm.trans h
    simp [hmarkers]
  · cases hread.symm.trans h
  · cases hread.symm.trans h

/-- The kind of a test is known if it is not both to fail and to return a result. -/
theorem testKind_checks (hvalued : ∀ e, ¬ f.head.Unvalued e) :
    Checks aliases f [.panicMarker, .oneKind] (testKind aliases f) := by
  have hliteral : Checks aliases f [] ((resultType f.head).mapError Failure.literal) := by
    cases hresult : resultType f.head with
    | error e => exact absurd (resultType_eq_error.mp hresult) (hvalued e)
    | ok result => exact .ok result
  refine hliteral.bind fun result hresult => shouldPanic_checks.bind fun panic hpanic => ?_
  have hmarkers := shouldPanic_eq_none hpanic
  have hreturns : result.isSome = true ↔ f.head.ReturnsResult := by
    apply resultType_eq_ok
    cases hr : resultType f.head with
    | error e =>
      rw [hr] at hresult
      cases hresult
    | ok r =>
      rw [hr] at hresult
      cases hresult
      rfl
  have hbreach (w : Violation) (s : Subject) : f.Breach aliases .oneKind w s ↔
      (panic ≠ none ∧ result.isSome = true) ∧ w = .panicWithResult ∧ s = .function f := by
    rw [Ne, hmarkers, hreturns]
    constructor
    · intro h
      cases h with
      | panicWithResult hpanic hresult => exact ⟨⟨hpanic, hresult⟩, rfl, rfl⟩
    · rintro ⟨⟨hpanic, hresult⟩, rfl, rfl⟩
      exact .panicWithResult hpanic hresult
  have hkeeps : f.Keeps aliases .oneKind ↔ panic = none ∨ ¬ result.isSome = true := by
    rw [hmarkers, hreturns]
    rfl
  cases panic <;> cases result
  · exact .kept (by simp [hkeeps]) (by simp [hbreach]) (.ok _)
  · exact .kept (by simp [hkeeps]) (by simp [hbreach]) (.ok _)
  · exact .kept (by simp [hkeeps]) (by simp [hbreach]) (.ok _)
  · exact .broken (v := .panicWithResult) (s := .function f) (by simp) (by simp [hkeeps]) (by simp [hbreach])

theorem Computation.mapM_isOk {ε α β : Type} {g : α → Except ε β} {xs : List α} :
    (∃ ys, xs.mapM g = .ok ys) ↔ ∀ x ∈ xs, ∃ y, g x = .ok y := by
  cases hxs : xs.mapM g with
  | ok ys =>
    have hall : ∀ x ∈ xs, ∃ y, g x = .ok y := by
      have hpairs := Computation.mapM_eq_ok hxs
      clear hxs
      induction hpairs with
      | nil => simp
      | cons hy _ ih => exact List.forall_mem_cons.mpr ⟨⟨_, hy⟩, ih⟩
    exact ⟨fun _ => hall, fun _ => ⟨ys, rfl⟩⟩
  | error e =>
    obtain ⟨before, x, after, rfl, -, hx⟩ := Computation.mapM_eq_error.mp hxs
    refine ⟨by simp, fun h => ?_⟩
    obtain ⟨y, hy⟩ := h x (by simp)
    cases hx.symm.trans hy

theorem requirement_cases (a : SyntaxTree) :
    (∃ value, a.argument? = some (.positional value) ∧ requirement a = .ok value) ∨
      (∀ value, a.argument? ≠ some (.positional value)) ∧ requirement a = violated .requiresForm a.argumentExtent? := by
  unfold requirement
  split
  · next value hvalue => exact .inl ⟨value, hvalue, rfl⟩
  · next hvalue => exact .inr ⟨hvalue, rfl⟩

theorem requirement_isOk (a : SyntaxTree) :
    (∃ value, requirement a = .ok value) ↔ ∃ value, a.argument? = some (.positional value) := by
  obtain ⟨value, hvalue, hread⟩ | ⟨hnone, hread⟩ := requirement_cases a
  · exact ⟨fun _ => ⟨value, hvalue⟩, fun _ => ⟨value, hread⟩⟩
  · refine ⟨fun ⟨_, h⟩ => ?_, fun ⟨value, h⟩ => absurd h (hnone value)⟩
    cases hread.symm.trans h

theorem requirement_eq_error (a : SyntaxTree) (e : Failure) :
    requirement a = .error e ↔ (∀ value, a.argument? ≠ some (.positional value)) ∧
      e = .fault (Violation.requiresForm.faultAt (.argument a) []) := by
  obtain ⟨value, hvalue, hread⟩ | ⟨hnone, hread⟩ := requirement_cases a
  · simp [hread, hvalue]
  · rw [hread]
    refine ⟨fun h => ⟨hnone, ?_⟩, fun ⟨_, h⟩ => ?_⟩
    · cases h
      simp [Violation.faultAt]
    · simp [h, Violation.faultAt, violated]

theorem requirementsOf_checks : Checks aliases f [.requirements] (requirementsOf aliases f) := by
  refine .single (Computation.mapM_isOk.trans (forall₂_congr fun a _ => requirement_isOk a)) fun e => ?_
  refine Computation.mapM_eq_error.trans ?_
  simp only [requirement_isOk, requirement_eq_error]
  constructor
  · rintro ⟨before, a, after, hsplit, hbefore, ha, rfl⟩
    exact ⟨_, _, .requirement hsplit hbefore ha, rfl⟩
  · rintro ⟨w, s, hbreach, rfl⟩
    cases hbreach with
    | requirement hsplit hbefore ha => exact ⟨_, _, _, hsplit, hbefore, ha, rfl⟩

/-- Whether a test takes the implementing type is not known if it takes anything else. -/
theorem takesType?_eq_none (h : FunctionHead) : takesType? h = none ↔
    (∃ p ∈ h.parameters, isStarParameter p = true) ∨ 1 < (h.parameters.filter isPlainParameter).length := by
  rw [← List.any_eq_true, takesType?]
  split_ifs with hbad
  · simpa using hbad
  · simpa using hbad

/-- Reading a test is checking all rules in their order. -/
theorem AssociatedTest.read_checks (hvalued : ∀ e, ¬ f.head.Unvalued e) :
    Checks aliases f TestRule.inOrder (AssociatedTest.read aliases f) := by
  have hrest (takesType : Bool) : Checks aliases f [.panicMarker, .oneKind, .requirements] (do
      let kind ← testKind aliases f
      let requirements ← requirementsOf aliases f
      let function :=
        { f with prelude := { f.prelude with decorators := keptDecorators aliases f.prelude.decorators } }
      return ({ kind, requirements, function, takesType } : AssociatedTest)) :=
    (testKind_checks hvalued).bind fun _ _ => requirementsOf_checks.bind fun _ _ => .ok _
  unfold AssociatedTest.read
  refine .guard (s := .function f) (by simp) (by simp [Function.Keeps]) (fun w t => ?_)
    (.guard (s := .name f.head.name) (by simp) (by simp [Function.Keeps]) (fun w t => ?_)
      (.guard (s := .function f) (by simp) ?_ (fun w t => ?_) ?_))
  · constructor
    · intro h
      cases h with
      | async h => exact ⟨Option.isSome_iff_ne_none.mpr h, rfl, rfl⟩
    · rintro ⟨h, rfl, rfl⟩
      exact .async (Option.isSome_iff_ne_none.mp h)
  · constructor
    · intro h
      cases h with
      | reserved h => exact ⟨h, rfl, rfl⟩
    · rintro ⟨h, rfl, rfl⟩
      exact .reserved h
  · simp [Function.Keeps, ← isStub_iff]
  · rw [Bool.or_eq_true, isStub_iff, List.any_eq_true]
    constructor
    · intro h
      cases h with
      | abstract hd habstract => exact ⟨.inl ⟨_, hd, habstract⟩, rfl, rfl⟩
      | stub hstub => exact ⟨.inr hstub, rfl, rfl⟩
    · rintro ⟨⟨d, hd, habstract⟩ | hstub, rfl, rfl⟩
      · exact .abstract hd habstract
      · exact .stub hstub
  · have hbreach (w : Violation) (t : Subject) : f.Breach aliases .parameters w t ↔
        takesType? f.head = none ∧ w = .testParameters f.name ∧ t = .parameters f.head := by
      rw [takesType?_eq_none]
      constructor
      · intro h
        cases h with
        | star hp hstar => exact ⟨.inl ⟨_, hp, hstar⟩, rfl, rfl⟩
        | several hmore => exact ⟨.inr hmore, rfl, rfl⟩
      · rintro ⟨⟨p, hp, hstar⟩ | hmore, rfl, rfl⟩
        · exact .star hp hstar
        · exact .several hmore
    have hkeeps : f.Keeps aliases .parameters ↔ ¬ takesType? f.head = none := by
      simp [takesType?_eq_none, Function.Keeps]
    cases htakes : takesType? f.head with
    | none =>
      exact .broken (v := .testParameters f.name) (s := .parameters f.head) (by simp) (by simp [hkeeps, htakes])
        (by simp [hbreach, htakes])
    | some takesType => exact .kept (by simp [hkeeps, htakes]) (by simp [hbreach, htakes]) (hrest takesType)

end

end Conformance
