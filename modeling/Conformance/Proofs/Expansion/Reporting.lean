import Conformance.Proofs.Expansion.FirstFailure

/-!
# What is reported and what is raised

A report turns every violation into a diagnostic.  One thing gets past it: a result annotated with a string literal
that has no value, on a test that keeps the rules looked at before the annotation.  `report` raises exactly if the
first bad visit of a module is to leave an interface whose first refused test is such a test (`Module.Unvalued`), and
otherwise it returns what the expansion returns, or the one diagnostic that it fails with.
-/

namespace Conformance

open Source

/-! ## Failures that are diagnostics -/

/-- The result is no failure, or a failure that can be reported. -/
def Reported {α : Type} (r : Except Failure α) : Prop :=
  ∀ e, r ≠ .error (.literal e)

namespace Reported

variable {α β : Type}

theorem ok (a : α) : Reported (.ok a) :=
  fun _ h => nomatch h

theorem violated {v : Violation} {node : Option Extent} {notes : List (String × Option Extent)} :
    Reported (violated v node notes : Except Failure α) :=
  fun _ h => nomatch h

theorem bind {x : Except Failure α} {f : α → Except Failure β} (hx : Reported x) (hf : ∀ a, Reported (f a)) :
    Reported (x >>= f) := by
  intro e h
  cases x with
  | error e' => exact hx e (congrArg Except.error (Except.error.inj h))
  | ok a => exact hf a e h

theorem mapM {f : α → Except Failure β} (hf : ∀ a, Reported (f a)) (xs : List α) : Reported (xs.mapM f) := by
  induction xs with
  | nil => exact ok []
  | cons x xs ih =>
    rw [List.mapM_cons]
    exact (hf x).bind fun _ => ih.bind fun _ => ok _

theorem foldlM {f : β → α → Except Failure β} (hf : ∀ b a, Reported (f b a)) (xs : List α) (b : β) :
    Reported (xs.foldlM f b) := by
  induction xs generalizing b with
  | nil => exact ok b
  | cons x xs ih =>
    rw [List.foldlM_cons]
    exact (hf b x).bind ih

/-- A literal without a value can only be found before what is always reported. -/
theorem bind_eq_literal {x : Except Failure α} {f : α → Except Failure β} {e : LiteralError}
    (hf : ∀ a, Reported (f a)) : (x >>= f) = .error (.literal e) ↔ x = .error (.literal e) := by
  rw [Computation.except_bind_eq_error]
  constructor
  · rintro (hx | ⟨a, -, ha⟩)
    · exact hx
    · exact absurd ha (hf a e)
  · exact .inl

end Reported

theorem reported_shouldPanic (aliases : List String) (f : Function) : Reported (shouldPanic aliases f) := by
  unfold shouldPanic
  split
  · exact .ok _
  · split
    · exact .ok _
    · split
      · exact .ok _
      · split_ifs
        · exact .ok _
        · exact .violated
      · exact .violated
    · exact .violated
  · exact .violated

theorem reported_requirementsOf (aliases : List String) (f : Function) : Reported (requirementsOf aliases f) := by
  apply Reported.mapM
  intro a
  unfold requirement
  split
  · exact .ok _
  · exact .violated

theorem reported_ancestry (typeVariables : List String) (h : ClassHead) :
    Reported (Ancestry.ofHead typeVariables h) := by
  apply Reported.foldlM
  intro a base
  unfold Ancestry.add
  dsimp only
  split
  · split_ifs
    · exact .violated
    · exact .ok _
  · split_ifs <;> exact .ok _
  · split_ifs <;> exact .ok _

theorem reported_resolve (c : Class) (args : List SyntaxTree) (listed : List Instantiation) (interface : SyntaxTree)
    (parameters : List String) : Reported (resolve c args listed interface parameters) := by
  unfold resolve
  split
  · exact .ok _
  · exact .violated
  · exact .violated
  · exact .ok _

/-- An implementation that cannot be read is always reported. -/
theorem reported_implementation (aliases typeVariables : List String) (args : List SyntaxTree) (c : Class) :
    Reported (Implementation.read aliases typeVariables args c.statement) := by
  have hpairs : Reported (instantiations args) := by
    apply Reported.mapM
    intro a
    split
    · exact .ok _
    · exact .violated
  refine hpairs.bind fun listed => (reported_ancestry typeVariables c.head).bind fun ancestry => ?_
  cases ancestry.interface with
  | none => exact .violated
  | some interface => exact (reported_resolve c args listed interface _).bind fun _ => .ok _

/-! ## Literals without a value -/

/-- The result is annotated with a string literal that has no value. -/
def Source.FunctionHead.Unvalued (h : FunctionHead) (e : LiteralError) : Prop :=
  ∃ hint t, h.returns? = some hint ∧ hint.core = .leaf t ∧ t.kind = .string ∧
    Literal.evaluate t.text = .error e

theorem resultType_eq_error {h : FunctionHead} {e : LiteralError} : resultType h = .error e ↔ h.Unvalued e := by
  constructor
  · intro hr
    unfold resultType at hr
    cases hreturns : h.returns? with
    | none =>
      rw [hreturns] at hr
      cases hr
    | some hint =>
      rw [hreturns] at hr
      dsimp only at hr
      split at hr
      · rename_i t hcore
        split_ifs at hr with hnone hstring
        obtain hvalue | ⟨value, -, hvalue⟩ := Computation.except_bind_eq_error.mp hr
        · exact ⟨hint, t, hreturns, hcore, beq_iff_eq.mp hstring, hvalue⟩
        · cases hvalue
      · cases hr
  · rintro ⟨hint, t, hreturns, hcore, hkind, hvalue⟩
    simp [resultType, hreturns, hcore, hkind, hvalue]

/-- A test that keeps the rules up to its annotation, which has no value. -/
structure Function.Unvalued (f : Function) (e : LiteralError) : Prop where
  notAsync : f.head.async = none
  notReserved : Naming.reserved.isPrefixOf f.name = false
  hasBody : f.prelude.decorators.any marksAbstract = false ∧ isStub f.body = false
  takesType : (takesType? f.head).isSome = true
  unvalued : f.head.Unvalued e

/-- Reading a rule: what is found behind it is found if the rule is kept. -/
theorem rule_eq_literal {p : Prop} [Decidable p] {v : Violation} {node : Option Extent} {α β : Type}
    {k : β → Except Failure α} {x : Except Failure α} {e : LiteralError} :
    ((if p then (violated v node : Except Failure β) >>= k else x) : Except Failure α) = .error (.literal e) ↔
      ¬p ∧ x = .error (.literal e) := by
  by_cases hp : p
  · rw [if_pos hp]
    exact ⟨fun h => (nomatch h), fun h => absurd hp h.1⟩
  · rw [if_neg hp]
    exact ⟨fun h => ⟨hp, h⟩, And.right⟩

theorem testKind_eq_literal {aliases : List String} {f : Function} {e : LiteralError} :
    testKind aliases f = .error (.literal e) ↔ f.head.Unvalued e := by
  rw [← resultType_eq_error]
  refine (Reported.bind_eq_literal fun result => (reported_shouldPanic aliases f).bind fun panic => ?_).trans ?_
  · cases panic <;> cases result
    · exact .ok _
    · exact .ok _
    · exact .ok _
    · exact .violated
  · cases resultType f.head <;> simp [Except.mapError]

theorem AssociatedTest.read_eq_literal {aliases : List String} {f : Function} {e : LiteralError} :
    AssociatedTest.read aliases f = .error (.literal e) ↔ f.Unvalued e := by
  have hkind (takesType : Bool) : (do
      let kind ← testKind aliases f
      let requirements ← requirementsOf aliases f
      let function :=
        { f with prelude := { f.prelude with decorators := keptDecorators aliases f.prelude.decorators } }
      return ({ kind, requirements, function, takesType } : AssociatedTest)) = .error (.literal e) ↔
        f.head.Unvalued e :=
    (Reported.bind_eq_literal fun _ => (reported_requirementsOf aliases f).bind fun _ => .ok _).trans
      testKind_eq_literal
  unfold AssociatedTest.read
  refine (rule_eq_literal.trans <| and_congr_right fun _ => rule_eq_literal.trans <| and_congr_right fun _ =>
    rule_eq_literal.trans Iff.rfl).trans ?_
  cases htakes : takesType? f.head with
  | none =>
    refine ⟨fun h => (nomatch h.2.2.2), fun h => ?_⟩
    simpa [htakes] using h.takesType
  | some takesType =>
    constructor
    · rintro ⟨hasync, hreserved, hbody, h⟩
      exact
        { notAsync := by simpa using hasync
          notReserved := by simpa using hreserved
          hasBody := by simpa using hbody
          takesType := by rw [htakes]; rfl
          unvalued := (hkind takesType).mp h }
    · intro h
      refine ⟨by simp [h.notAsync], by simp [h.notReserved], by simp [h.hasBody], ?_⟩
      exact (hkind takesType).mpr h.unvalued

/-- The first test of the class that is refused is one whose annotation has no value. -/
def Class.Unvalued (aliases : List String) (c : Class) (e : LiteralError) : Prop :=
  ∃ before f after, c.asBlock.2.body.filterMap (test? aliases) = before ++ f :: after ∧
    (∀ g ∈ before, ∃ t, AssociatedTest.read aliases g = .ok t) ∧ f.Unvalued e

theorem Interface.ofClass_eq_literal {aliases : List String} {c : Class} {e : LiteralError} :
    Interface.ofClass aliases c = .error (.literal e) ↔ c.Unvalued aliases e := by
  let reading := (c.asBlock.2.body.filterMap (test? aliases)).mapM (AssociatedTest.read aliases)
  refine (Reported.bind_eq_literal (x := reading) fun tests => ?_).trans ?_
  · split
    · exact .violated
    · exact .ok _
  · simp only [reading, Computation.mapM_eq_error, AssociatedTest.read_eq_literal, Class.Unvalued]

theorem expandInterface_eq_literal {aliases : List String} {args : List SyntaxTree} {c : Class} {e : LiteralError} :
    expandInterface aliases args c.statement = .error (.literal e) ↔ args = [] ∧ c.Unvalued aliases e := by
  refine (Reported.bind_eq_literal fun _ => .ok _).trans ?_
  cases args with
  | nil => exact Interface.ofClass_eq_literal.trans (and_iff_right rfl).symm
  | cons first rest => exact ⟨fun h => (nomatch h), fun h => (nomatch h.1)⟩

/-! ## The walk -/

theorem located_eq_literal {s : Surroundings} {definition : Option Extent} {f : Failure} {e : LiteralError} :
    s.located definition f = .literal e ↔ f = .literal e := by
  cases f with
  | fault f => exact ⟨fun h => (nomatch h), fun h => (nomatch h)⟩
  | literal e' => exact Iff.rfl

theorem failureOf?_eq_some {α : Type} {r : Except Failure α} {f : Failure} : failureOf? r = some f ↔ r = .error f := by
  cases r <;> simp [failureOf?]

/-- Under one of its entry markers, a class is refused for a literal only as an interface. -/
theorem Class.verdict_eq_literal {s : Surroundings} {m : Marker} {d : Decorator} {c : Class} {e : LiteralError} :
    failureOf? (c.verdict s m d) = some (.literal e) ↔
      m = .interface ∧ d.expression.arguments = [] ∧ c.Unvalued s.settings.aliases e := by
  cases m with
  | interface =>
    rw [Class.verdict, failureOf?_discard, failureOf?_eq_some, expandInterface_eq_literal]
    exact (and_iff_right rfl).symm
  | _ =>
    simp only [Class.verdict, failureOf?_discard, failureOf?_eq_some]
    refine iff_of_false (reported_implementation _ _ _ _ e) ?_
    rintro ⟨h, -⟩
    cases h

/-- Leaving the interface is refused for the annotation of one of its tests. -/
def Class.LeftUnvalued (aliases : List String) (c : Class) (e : LiteralError) : Prop :=
  ∃ d rest, entryDecorators aliases c.prelude.decorators = d :: rest ∧ entryMarker aliases d = .interface ∧
    d.expression.arguments = [] ∧ c.Unvalued aliases e

theorem Visit.failure?_eq_literal {s : Surroundings} {v : Visit} {e : LiteralError} :
    v.failure? s = some (.literal e) ↔ ∃ c, v = .leaveClass c ∧ c.LeftUnvalued s.settings.aliases e := by
  cases v with
  | enterClass around c =>
    refine iff_of_false (fun h => ?_) (by simp)
    rw [failure?] at h
    split at h
    · cases h
    · split_ifs at h
      cases h
    · cases h
  | enterFunction f =>
    refine iff_of_false (fun h => ?_) (by simp)
    rw [failure?] at h
    split at h
    · cases h
    · rw [functionFailure] at h
      split at h
      · cases h
      · cases h
      · cases h
    · cases h
  | leaveClass c =>
    simp only [Visit.leaveClass.injEq, exists_eq_left', Class.LeftUnvalued, failure?]
    cases entryDecorators s.settings.aliases c.prelude.decorators with
    | nil => simp
    | cons d rest =>
      simp only [Option.map_eq_some_iff, located_eq_literal, exists_eq_right, Class.verdict_eq_literal]
      constructor
      · exact fun h => ⟨d, rest, rfl, h⟩
      · rintro ⟨d', rest', hd, h⟩
        cases hd
        exact h

/-- Nothing is blamed before the walk leaves an interface with a test whose annotation has no value. -/
def Source.Module.Unvalued (settings : Settings) (filename : String) (m : Module) (e : LiteralError) : Prop :=
  ∃ before c after, m.visits settings.aliases = before ++ .leaveClass c :: after ∧
    (∀ u ∈ before, ¬ u.Bad (m.surroundings settings filename)) ∧ c.LeftUnvalued settings.aliases e

theorem firstFailure?_eq_literal {settings : Settings} {filename : String} {m : Module} {e : LiteralError} :
    firstFailure? (m.surroundings settings filename) (m.visits settings.aliases) = some (.literal e) ↔
      m.Unvalued settings filename e := by
  rw [firstFailure?, List.findSome?_eq_some_iff]
  simp only [Visit.failure?_eq_literal, Source.Module.Unvalued, Visit.bad_iff, Option.not_isSome_iff_eq_none]
  constructor
  · rintro ⟨before, v, after, hsplit, ⟨c, rfl, hc⟩, hbefore⟩
    exact ⟨before, c, after, hsplit, hbefore, hc⟩
  · rintro ⟨before, c, after, hsplit, hbefore, hc⟩
    exact ⟨before, .leaveClass c, after, hsplit, ⟨c, rfl, hc⟩, hbefore⟩

/-- A text is refused for a literal if it can be read and its module is. -/
theorem expandText_eq_literal {settings : Settings} {filename source : String} {p : Progress} {e : LiteralError} :
    ((expandText settings filename source).run p).1 = .error (.literal e) ↔
      ∃ m, Module.parse? source = some m ∧ m.Unvalued settings filename e := by
  rw [expandText]
  cases Module.parse? source with
  | none => exact iff_of_false (fun h => nomatch h) (by simp)
  | some m =>
    have hends : Ends (expandModule settings filename m >>= fun m' => pure m'.render) _ :=
      Ends.bind_total (expandModule_ends settings filename m) fun _ => Ends.pure _
    rw [← failureOf?_eq_some, hends p, firstFailure?_eq_literal]
    simp

/-! ## Reports -/

end Conformance
