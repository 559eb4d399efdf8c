import Conformance.Proofs.Interface.Basic
import Conformance.Proofs.Implementation.Parameters

/-!
# What an implementation is tested for

A marked statement is refused, or it is tested for some instantiations.  `Statement.JudgedAs` says which, one rule for
each outcome, and the rules come in the order in which the outcomes take precedence: the statement, the arguments of the
marker, negated bases, the interface, and last whether the arguments fit the type parameters.
-/

namespace Conformance

open Source

/-! ## Pairs -/

/-- The argument of a marker is the pair: a tuple of two elements, with no keyword before it and no star anywhere. -/
def Source.SyntaxTree.Pairs (a : SyntaxTree) (i : Instantiation) : Prop :=
  ∃ value, a.argument? = some (.positional value) ∧ value.core.is .tuple = true ∧
    value.core.items = [i.implementer, i.interface] ∧
    i.implementer.is .starred = false ∧ i.interface.is .starred = false

theorem ofArgument?_eq_some {a : SyntaxTree} {i : Instantiation} :
    Instantiation.ofArgument? a = some i ↔ a.Pairs i := by
  obtain ⟨implementer, interface⟩ := i
  unfold Instantiation.ofArgument? SyntaxTree.Pairs
  cases a.argument? with
  | none => simp
  | some argument =>
    cases argument with
    | positional value =>
      simp only [tupleElements?, Option.bind_eq_bind, Option.bind_some, Option.some.injEq, Argument.positional.injEq,
        exists_eq_left']
      by_cases htuple : value.core.is .tuple = true
      · rw [if_pos htuple, Option.bind_some]
        rcases value.core.items with _ | ⟨x, _ | ⟨y, _ | ⟨z, rest⟩⟩⟩
        · simp
        · simp
        · grind
        · simp
      · simp [htuple]
    | _ => simp

/-- Reads one argument of a marker. -/
def readPair (a : SyntaxTree) : Except Failure Instantiation :=
  (Instantiation.ofArgument? a).elim (violated .pairForm a.argumentExtent?) .ok

theorem readPair_eq_ok {a : SyntaxTree} {i : Instantiation} : readPair a = .ok i ↔ a.Pairs i := by
  rw [← ofArgument?_eq_some, readPair]
  cases Instantiation.ofArgument? a <;> simp [violated]

theorem readPair_eq_error {a : SyntaxTree} {e : Failure} :
    readPair a = .error e ↔ (∀ i, ¬ a.Pairs i) ∧ e = .fault (Violation.pairForm.fault a.argumentExtent? []) := by
  simp only [← ofArgument?_eq_some, readPair]
  cases Instantiation.ofArgument? a <;> simp [violated, eq_comm]

theorem instantiations_eq_mapM (args : List SyntaxTree) : instantiations args = args.mapM readPair := by
  refine congrArg (List.mapM · args) (funext fun a => ?_)
  unfold readPair
  cases Instantiation.ofArgument? a <;> rfl

section
variable {args : List SyntaxTree}

/-- The arguments of a marker are read as pairs if they all are pairs. -/
theorem instantiations_eq_ok {pairs : List Instantiation} :
    instantiations args = .ok pairs ↔ List.Forall₂ SyntaxTree.Pairs args pairs := by
  rw [instantiations_eq_mapM]
  constructor
  · exact fun h => (Computation.mapM_eq_ok h).imp fun _ _ => readPair_eq_ok.mp
  · intro h
    induction h with
    | nil => rfl
    | cons hpair _ ih =>
      rw [List.mapM_cons, readPair_eq_ok.mpr hpair, ih]
      rfl

/-- Otherwise the first that is no pair is reported. -/
theorem instantiations_eq_error {e : Failure} :
    instantiations args = .error e ↔ ∃ before a after, args = before ++ a :: after ∧ (∀ b ∈ before, ∃ i, b.Pairs i) ∧
      (∀ i, ¬ a.Pairs i) ∧ e = .fault (Violation.pairForm.fault a.argumentExtent? []) := by
  simp only [instantiations_eq_mapM, Computation.mapM_eq_error, readPair_eq_ok, readPair_eq_error]

end

/-! ## Outcomes -/

/-- The report of a category, with a message at a place, and with notes that have no place. -/
def refusal (kind : DiagnosticKind) (message : String) (place : Option Extent) (notes : List String) :
    Except Failure (List Instantiation) :=
  .error (.fault
    { kind, main := { message, node := place }, notes := notes.map fun n => { message := n, node := none } })

/-- No base is negated, and the first base that does more than declare type parameters is the interface. -/
structure Source.ClassHead.Implements (h : ClassHead) (interface : SyntaxTree) : Prop where
  positive : ∀ base ∈ h.positionalBases, base.isNegated = false
  first : h.interface? = some interface

/-- What becomes of a statement under the marker of an implementation: a report, or the instantiations that it is tested
for. -/
inductive Source.Statement.JudgedAs (typeVariables : List String) (args : List SyntaxTree) (item : Statement) :
    Except Failure (List Instantiation) → Prop
  | noClass : item.class? = none →
      JudgedAs typeVariables args item
        (refusal .unexpectedConstruct Violation.notImplementation.message item.extent? [])
  | noPair {c : Class} {before after : List SyntaxTree} {a : SyntaxTree} : item.class? = some c →
      args = before ++ a :: after → (∀ b ∈ before, ∃ i, b.Pairs i) → (∀ i, ¬ a.Pairs i) →
      JudgedAs typeVariables args item (refusal .invalidArguments Violation.pairForm.message a.argumentExtent? [])
  | negated {c : Class} {pairs : List Instantiation} {before after : List SyntaxTree} {base : SyntaxTree} :
      item.class? = some c → List.Forall₂ SyntaxTree.Pairs args pairs →
      c.head.positionalBases = before ++ base :: after → (∀ b ∈ before, b.isNegated = false) →
      base.isNegated = true →
      JudgedAs typeVariables args item
        (refusal .unsupportedNegativeImpl Violation.negativeImplementation.message base.core.extent? [])
  | noInterface {c : Class} {pairs : List Instantiation} : item.class? = some c →
      List.Forall₂ SyntaxTree.Pairs args pairs → (∀ base ∈ c.head.positionalBases, base.declaresOnly = true) →
      JudgedAs typeVariables args item
        (refusal .unexpectedConstruct Violation.notImplementation.message c.head.name.extent?
          ["the implemented interface must be listed as a base class"])
  | unexpectedPairs {c : Class} {interface first : SyntaxTree} {rest : List SyntaxTree} {pairs : List Instantiation} :
      item.class? = some c → args = first :: rest → List.Forall₂ SyntaxTree.Pairs args pairs →
      c.head.Implements interface → c.head.parametersBy SyntaxTree.namesAll typeVariables = [] →
      JudgedAs typeVariables args item
        (refusal .unexpectedConcreteList Violation.unexpectedPairs.message first.argumentExtent? [])
  | missingPairs {c : Class} {interface : SyntaxTree} {parameters : List String} : item.class? = some c → args = [] →
      c.head.Implements interface → c.head.parametersBy SyntaxTree.namesAll typeVariables = parameters →
      parameters ≠ [] →
      JudgedAs typeVariables args item
        (refusal .missingInstantiations (Violation.missingPairs c.name parameters interface.code).message
          c.head.name.extent?
          ["associated tests for this generic implementation can only be instantiated for concrete types"])
  | own {c : Class} {interface : SyntaxTree} : item.class? = some c → args = [] → c.head.Implements interface →
      c.head.parametersBy SyntaxTree.namesAll typeVariables = [] →
      JudgedAs typeVariables args item (.ok [{ implementer := .ofName c.name, interface }])
  | listed {c : Class} {interface : SyntaxTree} {pairs : List Instantiation} : item.class? = some c → args ≠ [] →
      List.Forall₂ SyntaxTree.Pairs args pairs → c.head.Implements interface →
      c.head.parametersBy SyntaxTree.namesAll typeVariables ≠ [] →
      JudgedAs typeVariables args item (.ok pairs)

section
variable {aliases typeVariables : List String} {args : List SyntaxTree} {item : Statement} {c : Class}

/-- A base that only declares is no negated one. -/
theorem isNegated_of_declaresOnly {base : SyntaxTree} (h : base.declaresOnly = true) : base.isNegated = false := by
  rw [SyntaxTree.declaresOnly, SyntaxTree.subscript?] at h
  rw [SyntaxTree.isNegated]
  cases hcore : base.core with
  | leaf t => rfl
  | node k children =>
    cases k with
    | unary =>
      rw [hcore] at h
      exact absurd h (by simpa using isGenericBase_unary hcore)
    | _ => rfl

/-- The instantiations of a statement that is read, or why it is not. -/
theorem read_instantiations :
    (Implementation.read aliases typeVariables args item).map Implementation.instantiations =
      item.class?.elim (violated .notImplementation item.extent?) fun c =>
        instantiations args >>= fun listed => Ancestry.ofHead typeVariables c.head >>= fun a =>
          a.interface.elim
            (violated .notImplementation c.head.name.extent?
              [("the implemented interface must be listed as a base class", none)])
            fun interface => resolve c args listed interface a.parameters := by
  unfold Implementation.read
  cases item.class? with
  | none => rfl
  | some c =>
    change Except.map _ (instantiations args >>= _) = (instantiations args >>= _)
    cases instantiations args with
    | error e => rfl
    | ok listed =>
      change Except.map _ (Ancestry.ofHead typeVariables c.head >>= _) = (Ancestry.ofHead typeVariables c.head >>= _)
      cases Ancestry.ofHead typeVariables c.head with
      | error e => rfl
      | ok a =>
        obtain ⟨_ | interface, parameters⟩ := a
        · rfl
        · change Except.map _ (resolve c args listed interface parameters >>= _) =
            resolve c args listed interface parameters
          cases resolve c args listed interface parameters <;> rfl

/-- After the arguments are read, the bases decide. -/
theorem read_of_pairs {pairs : List Instantiation} (hc : item.class? = some c)
    (hpairs : List.Forall₂ SyntaxTree.Pairs args pairs) :
    (Implementation.read aliases typeVariables args item).map Implementation.instantiations =
      (c.head.positionalBases.find? SyntaxTree.isNegated).elim
        (c.head.interface?.elim
          (refusal .unexpectedConstruct Violation.notImplementation.message c.head.name.extent?
            ["the implemented interface must be listed as a base class"])
          fun interface => resolve c args pairs interface (c.head.parametersBy SyntaxTree.namesAll typeVariables))
        fun base =>
          refusal .unsupportedNegativeImpl Violation.negativeImplementation.message base.core.extent? [] := by
  rw [read_instantiations, hc, Option.elim_some, instantiations_eq_ok.mpr hpairs]
  change (Ancestry.ofHead typeVariables c.head >>= _) = _
  rw [Ancestry.ofHead_eq]
  cases c.head.positionalBases.find? SyntaxTree.isNegated with
  | none => cases c.head.interface? <;> rfl
  | some base => rfl

/-- If there is an interface, the type parameters decide. -/
theorem read_of_implements {pairs : List Instantiation} {interface : SyntaxTree} (hc : item.class? = some c)
    (hpairs : List.Forall₂ SyntaxTree.Pairs args pairs) (himplements : c.head.Implements interface) :
    (Implementation.read aliases typeVariables args item).map Implementation.instantiations =
      resolve c args pairs interface (c.head.parametersBy SyntaxTree.namesAll typeVariables) := by
  have hnone : c.head.positionalBases.find? SyntaxTree.isNegated = none := by simpa using himplements.positive
  rw [read_of_pairs hc hpairs, hnone, himplements.first]
  rfl

theorem read_of_judgedAs {r : Except Failure (List Instantiation)} (h : item.JudgedAs typeVariables args r) :
    (Implementation.read aliases typeVariables args item).map Implementation.instantiations = r := by
  cases h with
  | noClass hc =>
    rw [read_instantiations, hc]
    rfl
  | noPair hc hargs hbefore ha =>
    rw [read_instantiations, hc, Option.elim_some, instantiations_eq_error.mpr ⟨_, _, _, hargs, hbefore, ha, rfl⟩]
    rfl
  | negated hc hpairs hbases hbefore hnegated =>
    have hfound := List.find?_eq_some_iff_append.mpr ⟨hnegated, _, _, hbases, by simpa using hbefore⟩
    rw [read_of_pairs hc hpairs, hfound]
    rfl
  | @noInterface c _ hc hpairs hbases =>
    have hpositive : c.head.positionalBases.find? SyntaxTree.isNegated = none :=
      List.find?_eq_none.mpr fun base hbase => by simp [isNegated_of_declaresOnly (hbases base hbase)]
    have hinterface : c.head.interface? = none :=
      List.find?_eq_none.mpr fun base hbase => by simp [hbases base hbase]
    rw [read_of_pairs hc hpairs, hpositive, hinterface]
    rfl
  | unexpectedPairs hc hargs hpairs himplements hparameters =>
    rw [read_of_implements hc hpairs himplements, hparameters]
    subst hargs
    cases hpairs
    rfl
  | missingPairs hc hargs himplements hparameters hne =>
    subst hargs
    rw [read_of_implements hc .nil himplements, hparameters]
    obtain ⟨p, ps, rfl⟩ := List.exists_cons_of_ne_nil hne
    rfl
  | own hc hargs himplements hparameters =>
    subst hargs
    rw [read_of_implements hc .nil himplements, hparameters]
    rfl
  | listed hc hargs hpairs himplements hne =>
    rw [read_of_implements hc hpairs himplements]
    obtain ⟨p, ps, hparameters⟩ := List.exists_cons_of_ne_nil hne
    rw [hparameters]
    cases hpairs with
    | nil => exact absurd rfl hargs
    | cons => rfl

/-- Every statement is judged as it is read. -/
theorem judgedAs_read : item.JudgedAs typeVariables args
    ((Implementation.read aliases typeVariables args item).map Implementation.instantiations) := by
  cases hc : item.class? with
  | none =>
    rw [read_instantiations, hc]
    exact .noClass hc
  | some c =>
    cases hlisted : instantiations args with
    | error e =>
      rw [read_instantiations, hc, Option.elim_some, hlisted]
      obtain ⟨before, a, after, hargs, hbefore, ha, rfl⟩ := instantiations_eq_error.mp hlisted
      exact .noPair hc hargs hbefore ha
    | ok pairs =>
      have hpairs := instantiations_eq_ok.mp hlisted
      cases hnegated : c.head.positionalBases.find? SyntaxTree.isNegated with
      | some base =>
        rw [read_of_pairs hc hpairs, hnegated]
        obtain ⟨hbase, before, after, hbases, hbefore⟩ := List.find?_eq_some_iff_append.mp hnegated
        exact .negated hc hpairs hbases (by simpa using hbefore) hbase
      | none =>
        cases hinterface : c.head.interface? with
        | none =>
          rw [read_of_pairs hc hpairs, hnegated, hinterface]
          exact .noInterface hc hpairs (by simpa [ClassHead.interface?] using hinterface)
        | some interface =>
          have himplements : c.head.Implements interface := ⟨by simpa using hnegated, hinterface⟩
          rw [read_of_implements hc hpairs himplements]
          cases hparameters : c.head.parametersBy SyntaxTree.namesAll typeVariables with
          | nil =>
            cases hpairs with
            | nil => exact .own hc rfl himplements hparameters
            | cons hfirst hrest => exact .unexpectedPairs hc rfl (.cons hfirst hrest) himplements hparameters
          | cons p ps =>
            have hne : c.head.parametersBy SyntaxTree.namesAll typeVariables ≠ [] := by simp [hparameters]
            cases hpairs with
            | nil => exact .missingPairs hc rfl himplements hparameters (List.cons_ne_nil _ _)
            | cons hfirst hrest => exact .listed hc (List.cons_ne_nil _ _) (.cons hfirst hrest) himplements hne

end

/-- What becomes of a marked statement is what the rules say, for any names that markers can be written with. -/
theorem read_iff_judgedAs (aliases typeVariables : List String) (args : List SyntaxTree) (item : Statement)
    (r : Except Failure (List Instantiation)) :
    (Implementation.read aliases typeVariables args item).map Implementation.instantiations = r ↔
      item.JudgedAs typeVariables args r := by
  constructor
  · rintro rfl
    exact judgedAs_read
  · exact read_of_judgedAs

end Conformance
