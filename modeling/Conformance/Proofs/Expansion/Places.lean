import Conformance.Proofs.Source.Places
import Conformance.Proofs.Expansion.Wording

/-!
# Expansion without places

The parts of interfaces and implementations without places, the rules that do not see places, and the generated code,
whose places are only those of what it takes over.
-/

namespace Conformance

open Source

/-! ## Rules -/

namespace Source.Decorator

@[simp] theorem marks_unplaced (aliases : List String) (m : Marker) (d : Decorator) :
    m.marks aliases d.unplaced = m.marks aliases d := by
  simp [Marker.marks, unplaced]

@[simp] theorem marksAbstract_unplaced (d : Decorator) : marksAbstract d.unplaced = marksAbstract d := by
  simp [marksAbstract, unplaced]

@[simp] theorem marksBinding_unplaced (d : Decorator) : marksBinding d.unplaced = marksBinding d := by
  simp [marksBinding, unplaced]

end Source.Decorator

theorem isDocumentation_unplaced (t : SyntaxTree) : isDocumentation t.unplaced = isDocumentation t := by
  cases t with
  | leaf t => rfl
  | node k ts =>
    rw [SyntaxTree.unplaced_node]
    cases k with
    | expression =>
      rcases ts with _ | ⟨e, _ | ⟨_, _⟩⟩
      · rfl
      · simp only [isDocumentation, List.map_cons, List.map_nil, SyntaxTree.core_unplaced]
        cases e.core <;> rfl
      · rfl
    | _ => rfl

theorem isEllipsis_unplaced (t : SyntaxTree) : isEllipsis t.unplaced = isEllipsis t := by
  cases t with
  | leaf t => rfl
  | node k ts =>
    rw [SyntaxTree.unplaced_node]
    cases k with
    | expression =>
      rcases ts with _ | ⟨e, _ | ⟨_, _⟩⟩
      · rfl
      · simp [isEllipsis]
      · rfl
    | _ => rfl

/-- A traversal of items that a change does not get in the way of. -/
theorem mapM_unplaced {α β : Type} {f : α → Option β} {g : α → α} {h : β → β} (hf : ∀ x, f (g x) = (f x).map h)
    (xs : List α) : (xs.map g).mapM f = (xs.mapM f).map (List.map h) := by
  induction xs with
  | nil => rfl
  | cons x xs ih =>
    rw [List.map_cons, List.mapM_cons, List.mapM_cons, hf, ih]
    cases f x with
    | none => rfl
    | some y => cases xs.mapM f <;> rfl

theorem Source.Suite.smallStatements?_unplaced (b : Suite) :
    b.unplaced.smallStatements? = b.smallStatements?.map (List.map SyntaxTree.unplaced) := by
  cases b with
  | inline body stop => simp [Suite.unplaced, smallStatements?, SyntaxTree.smallStatements_unplaced]
  | block opening indent body footer =>
    rw [Suite.unplaced, smallStatements?, statementsUnplaced_eq_map, smallStatements?,
      mapM_unplaced (h := List.map SyntaxTree.unplaced)]
    · simp only [Option.map_map, Function.comp_def, List.map_flatten]
    · intro s
      cases s with
      | simple lead line stop => exact congrArg some line.smallStatements_unplaced
      | _ => rfl

theorem isStub_unplaced (b : Suite) : isStub b.unplaced = isStub b := by
  unfold isStub
  rw [Suite.smallStatements?_unplaced]
  cases b.smallStatements? with
  | none => rfl
  | some small =>
    cases small with
    | nil => rfl
    | cons first rest =>
      simp only [Option.map_some, List.map_cons, isDocumentation_unplaced]
      cases isDocumentation first with
      | true =>
        rcases rest with _ | ⟨only, _ | ⟨_, _⟩⟩
        · rfl
        · exact isEllipsis_unplaced only
        · rfl
      | false =>
        cases rest with
        | nil => exact isEllipsis_unplaced first
        | cons _ _ => rfl

theorem takesType?_unplaced (h : FunctionHead) : takesType? h.unplaced = takesType? h := by
  have hplain : ∀ t : SyntaxTree, isPlainParameter t.unplaced = isPlainParameter t := fun t => by
    simp [isPlainParameter]
  have hstar : ∀ t : SyntaxTree, isStarParameter t.unplaced = isStarParameter t := fun t => by
    simp [isStarParameter]
  simp [takesType?, FunctionHead.parameters_unplaced, List.filter_map, List.any_map, Function.comp_def, hplain, hstar]

theorem resultType_unplaced (h : FunctionHead) :
    resultType h.unplaced = (resultType h).map (Option.map SyntaxTree.unplaced) := by
  unfold resultType
  rw [FunctionHead.returns?_unplaced]
  cases h.returns? with
  | none => rfl
  | some e =>
    simp only [Option.map_some, SyntaxTree.core_unplaced]
    cases e.core with
    | node k ts => rw [SyntaxTree.unplaced_node]; rfl
    | leaf t =>
      by_cases hnone : (t.kind == .name && t.text == "None") = true
      · simp [Token.unplaced, hnone, Except.map]
      · by_cases hstring : (t.kind == .string) = true
        · simp only [SyntaxTree.unplaced_leaf, Token.unplaced, hnone, hstring, if_true, Bool.false_eq_true, if_false]
          cases Literal.evaluate t.text with
          | error e => rfl
          | ok value =>
            by_cases hvalue : (value == .text ("None".toList.map Char.toNat)) = true
            · simp only [bind, Except.bind, hvalue, if_true]
              rfl
            · simp only [bind, Except.bind, hvalue]
              rfl
        · simp [Token.unplaced, hnone, hstring, Except.map]

/-- The text that the arguments of `should_panic` ask for, if they do; `none` if they have no accepted form. -/
def expectedText? : List SyntaxTree → Option (Option SyntaxTree)
  | [] => some none
  | [a] =>
    match a.argument? with
    | some (.positional value) => some (some value)
    | some (.keyword name value) => if name.text == "expected" then some (some value) else none
    | _ => none
  | _ => none

theorem expectedText?_unplaced (args : List SyntaxTree) :
    expectedText? (args.map SyntaxTree.unplaced) = (expectedText? args).map (Option.map SyntaxTree.unplaced) := by
  rcases args with _ | ⟨a, _ | ⟨_, _⟩⟩
  · rfl
  · simp only [List.map_cons, List.map_nil, expectedText?, SyntaxTree.argument?_unplaced]
    cases a.argument? with
    | none => rfl
    | some argument =>
      cases argument with
      | keyword name value =>
        simp only [Option.map_some, Argument.unplaced, Token.unplaced]
        split <;> rfl
      | _ => rfl
  · rfl

/-- The text is that of the one marker. -/
theorem shouldPanic_eq (aliases : List String) (f : Function) :
    shouldPanic aliases f =
      match f.prelude.decorators.filter (Marker.shouldPanic.marks aliases) with
      | [] => .ok none
      | [d] =>
        match expectedText? d.expression.arguments with
        | some expected => .ok (some expected)
        | none => violated .shouldPanicForm d.extent?
      | _ :: second :: _ => violated .repeatedShouldPanic second.extent? := by
  unfold shouldPanic
  rcases f.prelude.decorators.filter (Marker.shouldPanic.marks aliases) with _ | ⟨d, _ | ⟨_, _⟩⟩
  · rfl
  · simp only
    rcases d.expression.arguments with _ | ⟨a, _ | ⟨_, _⟩⟩
    · rfl
    · simp only [expectedText?]
      cases a.argument? with
      | none => rfl
      | some argument =>
        cases argument with
        | keyword name value =>
          simp only
          split <;> rfl
        | _ => rfl
    · rfl
  · rfl

/-! ## Functions and tests -/

/-- The function without places. -/
def Function.unplaced (f : Function) : Function :=
  { prelude := f.prelude.unplaced, head := f.head.unplaced, body := f.body.unplaced }

theorem Function.statement_unplaced (f : Function) : f.unplaced.statement = f.statement.unplaced := rfl

def TestKind.unplaced : TestKind → TestKind
  | .standard => .standard
  | .returnsResult output => .returnsResult output.unplaced
  | .shouldPanic expected => .shouldPanic (expected.map SyntaxTree.unplaced)

/-- The test without places. -/
def AssociatedTest.unplaced (t : AssociatedTest) : AssociatedTest :=
  { kind := t.kind.unplaced, requirements := t.requirements.map SyntaxTree.unplaced, function := t.function.unplaced,
    takesType := t.takesType }

namespace Runner

theorem fresh_unplaced (seen : List String) (rs : List SyntaxTree) :
    fresh seen (rs.map SyntaxTree.unplaced) = (fresh seen rs).map SyntaxTree.unplaced := by
  induction rs generalizing seen with
  | nil => rfl
  | cons r rs ih =>
    simp only [List.map_cons, fresh, SyntaxTree.code_unplaced, ih]
    split
    · rfl
    · rfl

theorem union_unplaced (tests : List AssociatedTest) :
    union (tests.map AssociatedTest.unplaced) = (union tests).map SyntaxTree.unplaced := by
  have hrequirements : (tests.map AssociatedTest.unplaced).flatMap AssociatedTest.requirements =
      (tests.flatMap AssociatedTest.requirements).map SyntaxTree.unplaced := by
    rw [List.flatMap_map, List.map_flatMap]
    rfl
  rw [union, union, hrequirements, fresh_unplaced]
  rfl

theorem typeArguments_unplaced (t : AssociatedTest) :
    typeArguments t = (typeArguments t).map SyntaxTree.unplaced := by
  unfold typeArguments
  cases t.takesType <;> rfl

theorem run_unplaced (t : AssociatedTest) : run t.unplaced = (run t).map Statement.unplaced := by
  have hcalled : (SyntaxTree.ofName t.unplaced.name).apply (typeArguments t.unplaced) =
      ((SyntaxTree.ofName t.name).apply (typeArguments t)).unplaced := by
    rw [← SyntaxTree.apply_unplaced, ← typeArguments_unplaced]
    rfl
  obtain ⟨kind, requirements, function, takesType⟩ := t
  cases kind with
  | standard =>
    simp only [run, AssociatedTest.unplaced, TestKind.unplaced, List.map_cons, List.map_nil]
    rw [← Statement.ofExpression_unplaced, ← SyntaxTree.apply_unplaced]
    exact congrArg (fun called =>
      [Statement.ofExpression ((helper "expect_unit").apply [called, .ofText function.name])]) hcalled
  | returnsResult output =>
    simp only [run, AssociatedTest.unplaced, TestKind.unplaced, List.map_cons, List.map_nil]
    rw [← Statement.ofExpression_unplaced, SyntaxTree.trailing_unplaced, ← SyntaxTree.apply_unplaced]
    refine congrArg (· :: _) ?_
    refine (congrArg (fun called => Statement.line (.node .annotated [.ofName Naming.result, .ofSpaced ":",
      (output.trailing " ").unplaced, .ofSpaced "=", called])) hcalled).trans ?_
    simp only [Statement.line, Statement.unplaced, SyntaxTree.unplaced_node, List.map_cons, List.map_nil]
    rfl
  | shouldPanic expected =>
    simp only [run, AssociatedTest.unplaced, TestKind.unplaced, List.map_cons, List.map_nil]
    rw [← Statement.ofExpression_unplaced, ← SyntaxTree.apply_unplaced, List.map_cons, ← SyntaxTree.apply_unplaced,
      List.map_cons, ← typeArguments_unplaced, Option.toList_map]
    rfl

theorem nested_unplaced (f : Function) : nested f.unplaced = (nested f).unplaced := by
  rw [nested, f.statement_unplaced, Statement.withLead_unplaced, nested]
  rfl

theorem block_unplaced (interface : String) (t : AssociatedTest) :
    block interface t.unplaced = (block interface t).map Statement.unplaced := by
  simp only [block, run_unplaced, List.map_append, List.map_cons, List.map_nil, ← nested_unplaced]
  rfl

/-- The hidden method has no places but those of its tests. -/
theorem method_unplaced (interface : String) (tests : List AssociatedTest) :
    method interface (tests.map AssociatedTest.unplaced) = (method interface tests).unplaced := by
  have hblocks : (tests.map AssociatedTest.unplaced).flatMap (block interface) =
      (tests.flatMap (block interface)).map Statement.unplaced := by
    rw [List.flatMap_map, List.map_flatMap]
    exact congrArg (List.flatMap · tests) (funext (block_unplaced interface))
  rw [method, hblocks, union_unplaced, List.length_map, method, ← Statement.function_unplaced, List.map_append,
    List.map_cons, List.map_cons, ← Statement.ofExpression_unplaced, ← SyntaxTree.apply_unplaced, List.map_cons]
  rfl

end Runner

/-! ## Interfaces -/

/-- The class without places. -/
def Class.unplaced (c : Class) : Class :=
  { prelude := c.prelude.unplaced, head := c.head.unplaced, body := c.body.unplaced }

theorem Class.statement_unplaced (c : Class) : c.unplaced.statement = c.statement.unplaced := rfl

/-- The block without places. -/
def Block.unplaced (b : Block) : Block := { b with body := b.body.map Statement.unplaced }

/-- The interface without places. -/
def Interface.unplaced (i : Interface) : Interface :=
  { prelude := i.prelude.unplaced, head := i.head.unplaced, block := i.block.unplaced,
    tests := i.tests.map AssociatedTest.unplaced }

theorem ownLine_unplaced (body : SyntaxTree) : ownLine body.unplaced = (ownLine body).unplaced := by
  have hlast : body.unplaced.children.getLast?.any (SyntaxTree.isOperator ";") =
      body.children.getLast?.any (SyntaxTree.isOperator ";") := by
    rw [SyntaxTree.children_unplaced, List.getLast?_map]
    cases body.children.getLast? <;> simp
  simp only [ownLine, Statement.unplaced, hlast, SyntaxTree.bare_unplaced]
  split <;> rfl

theorem Class.asBlock_unplaced (c : Class) : c.unplaced.asBlock = (c.asBlock.1.unplaced, c.asBlock.2.unplaced) := by
  obtain ⟨prelude, head, body⟩ := c
  cases body with
  | block opening indent body footer =>
    simp only [Class.unplaced, Suite.unplaced, Class.asBlock, Block.unplaced, statementsUnplaced_eq_map]
  | inline line stop =>
    have hrest : SyntaxTree.mapLastAll (fun t => { t with after := {} }) (head.rest.map SyntaxTree.unplaced) =
        (SyntaxTree.mapLastAll (fun t => { t with after := {} }) head.rest).map SyntaxTree.unplaced := by
      rw [← SyntaxTree.unplacedAll_eq_map, ← SyntaxTree.unplacedAll_eq_map]
      apply SyntaxTree.mapLastAll_unplaced
      exact fun _ => rfl
    simp only [Class.unplaced, Suite.unplaced, Class.asBlock, Block.unplaced, ClassHead.unplaced, hrest,
      ownLine_unplaced, List.map_cons, List.map_nil]

theorem Interface.expanded_unplaced (i : Interface) : i.unplaced.expanded = i.expanded.unplaced := by
  have hbody : i.unplaced.block.body ++ [Runner.method i.head.name.text (i.tests.map AssociatedTest.unplaced)] =
      statementsUnplaced (i.block.body ++ [Runner.method i.head.name.text i.tests]) := by
    rw [Runner.method_unplaced, statementsUnplaced_eq_map, List.map_append]
    rfl
  exact congrArg (fun body => Class.mk i.prelude.unplaced i.head.unplaced
    (.block i.block.opening i.block.indent body i.block.footer)) hbody

theorem firstDuplicate?_unplaced (seen ts : List AssociatedTest) :
    firstDuplicate? (seen.map AssociatedTest.unplaced) (ts.map AssociatedTest.unplaced) =
      (firstDuplicate? seen ts).map (Prod.map AssociatedTest.unplaced AssociatedTest.unplaced) := by
  induction ts generalizing seen with
  | nil => rfl
  | cons t ts ih =>
    have hfind : (seen.map AssociatedTest.unplaced).find? (fun s => s.name == t.unplaced.name) =
        (seen.find? fun s => s.name == t.name).map AssociatedTest.unplaced := by
      rw [List.find?_map]
      rfl
    have hnext := ih (seen ++ [t])
    rw [List.map_append] at hnext
    rw [List.map_cons, firstDuplicate?, firstDuplicate?, hfind]
    cases seen.find? fun s => s.name == t.name with
    | none => exact hnext
    | some first => rfl

/-! ## Implementations -/

/-- The instantiation without places. -/
def Instantiation.unplaced (i : Instantiation) : Instantiation :=
  { implementer := i.implementer.unplaced, interface := i.interface.unplaced }

theorem tupleElements?_unplaced (t : SyntaxTree) :
    tupleElements? t.unplaced = (tupleElements? t).map (List.map SyntaxTree.unplaced) := by
  simp only [tupleElements?, SyntaxTree.core_unplaced, SyntaxTree.is_unplaced, SyntaxTree.items_unplaced]
  split <;> rfl

theorem Instantiation.ofArgument?_unplaced (a : SyntaxTree) :
    ofArgument? a.unplaced = (ofArgument? a).map unplaced := by
  unfold ofArgument?
  rw [SyntaxTree.argument?_unplaced]
  cases a.argument? with
  | none => rfl
  | some argument =>
    cases argument with
    | positional value =>
      simp only [Option.map_some, Argument.unplaced, Option.bind_eq_bind, Option.bind_some, tupleElements?_unplaced]
      cases tupleElements? value with
      | none => rfl
      | some elements =>
        match elements with
        | [] => rfl
        | [_] => rfl
        | [implementer, interface] =>
          simp only [Option.map_some, List.map_cons, List.map_nil, Option.bind_some, SyntaxTree.is_unplaced]
          split <;> rfl
        | _ :: _ :: _ :: _ => rfl
    | _ => rfl

theorem isGenericBase_unplaced (t : SyntaxTree) : isGenericBase t.unplaced = isGenericBase t := by
  rw [isGenericBase, SyntaxTree.dotted?_unplaced, isGenericBase]

theorem indexValue?_unplaced (t : SyntaxTree) : indexValue? t.unplaced = (indexValue? t).map SyntaxTree.unplaced := by
  cases t with
  | leaf t => rfl
  | node k ts =>
    rw [SyntaxTree.unplaced_node]
    cases k with
    | index =>
      match ts with
      | [] => rfl
      | [_] => rfl
      | [_, _] => rfl
      | _ :: _ :: _ :: _ => rfl
    | _ => rfl

theorem requirement_unplaced (a : SyntaxTree) :
    Alike (fun r r' => r.unplaced = r') (requirement a) (requirement a.unplaced) := by
  unfold requirement
  rw [SyntaxTree.argument?_unplaced]
  cases a.argument? with
  | none => exact .violated rfl
  | some argument =>
    cases argument with
    | positional value => exact .ok rfl
    | _ => exact .violated rfl

/-- The pair that an argument stands for, or the complaint that it is none. -/
theorem instantiations_unplaced (args : List SyntaxTree) :
    Alike (fun is is' => is.map Instantiation.unplaced = is') (instantiations args)
      (instantiations (args.map SyntaxTree.unplaced)) := by
  refine Alike.mapM_natural (fun a => ?_) args
  simp only [Instantiation.ofArgument?_unplaced]
  cases Instantiation.ofArgument? a with
  | none => exact .violated rfl
  | some i => exact .ok rfl

/-- What the bases say, without places. -/
def Ancestry.unplaced (a : Ancestry) : Ancestry := { a with interface := a.interface.map SyntaxTree.unplaced }

theorem Ancestry.add_unplaced (typeVariables : List String) (a : Ancestry) (base : SyntaxTree) :
    Alike (fun b b' => b.unplaced = b') (a.add typeVariables base) (a.unplaced.add typeVariables base.unplaced) := by
  have hother : { a with interface := a.interface <|> some base }.unplaced =
      { a.unplaced with interface := a.unplaced.interface <|> some base.unplaced } := by
    cases h : a.interface <;> simp [unplaced, h]
  have hdefault : Alike (fun b b' => b.unplaced = b')
      (if isGenericBase base then .ok a else .ok { a with interface := a.interface <|> some base })
      (if isGenericBase base then .ok a.unplaced
        else .ok { a.unplaced with interface := a.unplaced.interface <|> some base.unplaced }) := by
    cases isGenericBase base with
    | true => exact .ok rfl
    | false => exact .ok hother
  unfold add
  simp only [SyntaxTree.core_unplaced, isGenericBase_unplaced]
  cases base.core with
  | leaf t => exact hdefault
  | node k ts =>
    rw [SyntaxTree.unplaced_node]
    cases k with
    | unary =>
      rcases ts with _ | ⟨op | _, operand⟩
      · exact hdefault
      · simp only [List.map_cons, SyntaxTree.unplaced_leaf]
        by_cases hop : (op.text == "~") = true
        · simp only [hop, Token.unplaced]
          exact .violated rfl
        · simp only [hop, Token.unplaced]
          exact .ok hother
      · exact hdefault
    | subscript =>
      cases ts with
      | nil => exact hdefault
      | cons value rest =>
        have hmembers : (SyntaxTree.node .subscript (rest.map SyntaxTree.unplaced)).items =
            (SyntaxTree.node .subscript rest).items.map SyntaxTree.unplaced := by
          rw [← SyntaxTree.unplaced_node, SyntaxTree.items_unplaced]
        have hcode : ∀ m : SyntaxTree, (indexValue? m.unplaced).map SyntaxTree.code =
            (indexValue? m).map SyntaxTree.code := by
          intro m
          rw [indexValue?_unplaced]
          cases indexValue? m <;> simp
        have hnames : ∀ ms : List SyntaxTree,
            SyntaxTree.namesAll (ms.map SyntaxTree.unplaced) = SyntaxTree.namesAll ms := by
          intro ms
          rw [← SyntaxTree.unplacedAll_eq_map, SyntaxTree.namesAll_unplaced]
        simp only [List.map_cons, isGenericBase_unplaced, hmembers, List.filterMap_map, Function.comp_def, hcode,
          hnames]
        cases isGenericBase value with
        | true => exact .ok rfl
        | false => exact .ok (congrArg (fun b : Ancestry => Ancestry.mk b.interface _) hother)
    | _ => exact hdefault

/-- A choice among arguments that does not look at places, in step. -/
theorem filterMap_unplaced {f : Argument → Option SyntaxTree}
    (hf : ∀ b, f b.unplaced = (f b).map SyntaxTree.unplaced) (bs : List Argument) :
    List.Forall₂ (fun x y => x.unplaced = y) (bs.filterMap f) (bs.filterMap fun b => f b.unplaced) := by
  induction bs with
  | nil => exact .nil
  | cons b bs ih =>
    rw [List.filterMap_cons, List.filterMap_cons, hf]
    cases f b with
    | none => exact ih
    | some value => exact .cons rfl ih

theorem Ancestry.ofHead_unplaced (typeVariables : List String) (h : ClassHead) :
    Alike (fun a a' => a.unplaced = a') (ofHead typeVariables h) (ofHead typeVariables h.unplaced) := by
  simp only [ofHead, ClassHead.bases_unplaced, ClassHead.typeParameters_unplaced, List.filterMap_map]
  refine Alike.foldlM ((filterMap_unplaced (fun b => ?_) h.bases).imp ?_) rfl
  · cases b <;> rfl
  · rintro base _ rfl a _ rfl
    exact add_unplaced typeVariables a base

/-- What a class is tested for depends on its name, what its bases say and what is listed. -/
theorem resolve_alike {c c' : Class} (hname : c.name = c'.name) {args args' : List SyntaxTree}
    {listed listed' : List Instantiation}
    (hlisted : listed.map Instantiation.unplaced = listed'.map Instantiation.unplaced)
    {interface interface' : SyntaxTree} (hinterface : interface.unplaced = interface'.unplaced)
    (parameters : List String) :
    Alike (fun is is' => is.map Instantiation.unplaced = is'.map Instantiation.unplaced)
      (resolve c args listed interface parameters) (resolve c' args' listed' interface' parameters) := by
  have hcode : interface.code = interface'.code := by
    rw [← SyntaxTree.code_unplaced, hinterface, SyntaxTree.code_unplaced]
  cases parameters with
  | nil =>
    match listed, listed', hlisted with
    | [], [], _ =>
      refine .ok ?_
      simp only [List.map_cons, Instantiation.unplaced, hname, hinterface]
    | _ :: _, _ :: _, _ => exact .violated rfl
  | cons parameter parameters =>
    match listed, listed', hlisted with
    | [], [], _ =>
      simp only [resolve, hname, hcode]
      exact .violated rfl
    | _ :: _, _ :: _, hlisted => exact .ok hlisted

/-- The implementation without places. -/
def Implementation.unplaced (i : Implementation) : Implementation :=
  { definition := i.definition.unplaced, instantiations := i.instantiations.map Instantiation.unplaced,
    inline := i.inline }

namespace Implementation

theorem functionNames_unplaced (discovery : String) (next : Nat) (i : Implementation) :
    i.unplaced.functionNames discovery next = i.functionNames discovery next := by
  have hname : ∀ (inst : Instantiation) (discovery' : String) (n : Nat),
      Naming.synthesized discovery' inst.unplaced.interface n = Naming.synthesized discovery' inst.interface n := by
    intro inst discovery' n
    rw [Naming.synthesized, Naming.interfaceName, Instantiation.unplaced, SyntaxTree.lastSegment?_unplaced]
    rfl
  simp only [functionNames, unplaced, List.zipIdx_map, List.map_map, Function.comp_def, Prod.map, hname, id]
  rfl

theorem functionFor_unplaced (name : String) (inst : Instantiation) :
    functionFor name inst.unplaced = (functionFor name inst).unplaced := by
  rw [functionFor, functionFor, ← Statement.function_unplaced, List.map_cons, ← Statement.ofExpression_unplaced,
    invocation, invocation, ← SyntaxTree.apply_unplaced, ← SyntaxTree.dot_unplaced, ← SyntaxTree.dot_unplaced,
    ← SyntaxTree.guarded_unplaced]
  rfl

theorem calls_unplaced (names : List String) : (calls names).map Statement.unplaced = calls names := by
  have hcall : ∀ n : String, (Statement.ofExpression ((SyntaxTree.ofName n).apply [])).unplaced =
      Statement.ofExpression ((SyntaxTree.ofName n).apply []) := by
    intro n
    rw [← Statement.ofExpression_unplaced, ← SyntaxTree.apply_unplaced]
    rfl
  cases names with
  | nil => rfl
  | cons first rest =>
    simp only [calls, List.map_cons, ← Statement.withLead_unplaced, hcall, List.map_map, Function.comp_def]

theorem expanded_unplaced (discovery : String) (next : Nat) (i : Implementation) :
    i.unplaced.expanded discovery next = (i.expanded discovery next).map Statement.unplaced := by
  have hfunctions : ∀ names : List String,
      List.zipWith functionFor names (i.instantiations.map Instantiation.unplaced) =
        (List.zipWith functionFor names i.instantiations).map Statement.unplaced := by
    intro names
    rw [List.zipWith_map_right, List.map_zipWith]
    simp only [functionFor_unplaced]
  have hcalls : ∀ names : List String, (if i.inline then calls names else []) =
      (if i.inline then calls names else []).map Statement.unplaced := by
    intro names
    cases i.inline with
    | true => exact (calls_unplaced names).symm
    | false => rfl
  rw [expanded, functionNames_unplaced, expanded, List.map_append, List.map_append, ← hfunctions, ← hcalls]
  rfl

end Implementation

/-! ## Type variables -/

theorem typeVariablesOfLine_unplaced (line : SyntaxTree) :
    typeVariablesOfLine line.unplaced = typeVariablesOfLine line := by
  have hsmall : ∀ t : SyntaxTree, typeVariablesOfSmall t.unplaced = typeVariablesOfSmall t := by
    intro t
    cases t with
    | leaf t => rfl
    | node k ts =>
      rw [SyntaxTree.unplaced_node]
      cases k with
      | assign =>
        have hname : ∀ t : SyntaxTree, t.unplaced.name?.map Token.text = t.name?.map Token.text := by
          intro t
          rw [SyntaxTree.name?_unplaced]
          cases t.name? <;> rfl
        simp only [typeVariablesOfSmall, List.filter_map, Function.comp_def, SyntaxTree.isOperator_unplaced,
          List.getLast?_map]
        cases (ts.filter fun c => !c.isOperator "=").getLast? with
        | none => rfl
        | some value =>
          simp only [Option.map_some, SyntaxTree.isCall_unplaced, SyntaxTree.callee_unplaced,
            SyntaxTree.dotted?_unplaced, ← List.map_dropLast, List.filterMap_map, Function.comp_def, hname]
      | _ => rfl
  simp only [typeVariablesOfLine, SyntaxTree.smallStatements_unplaced, List.flatMap_map, hsmall]

end Conformance
