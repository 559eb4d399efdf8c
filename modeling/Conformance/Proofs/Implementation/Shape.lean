import Conformance.Proofs.Interface.Preservation
import Conformance.Proofs.Implementation.Parameters
import Conformance.Implementation.Functions

/-!
# What an implementation is expanded into

The class comes first, without the markers that run its tests in place.  A function follows for each instantiation, and
if the class had such a marker, a call of each function.  What the functions and calls do is said by reading them: what
is called, which attribute that is of what, with which arguments.
-/

namespace Conformance

open Source

/-! ## Reading generated code -/

namespace Source

/-- The expression that is all there is on a line. -/
def Statement.expression? : Statement → Option SyntaxTree
  | .simple _ (.node .simple [.node .expression [e]]) _ => some e
  | _ => none

namespace SyntaxTree

/-- What an attribute is taken of, and its name. -/
def member? (t : SyntaxTree) : Option (SyntaxTree × String) :=
  match t.core with
  | node .member [value, _, leaf name] => some (value, name.text)
  | _ => none

/-- Whether an attribute of the expression can be written by a dot right after it. -/
def isPrimary : SyntaxTree → Bool
  | leaf t => t.kind == .name
  | node k children => [Kind.member, .subscript, .call].contains k || children.head?.any (isOperator "(")

/-- The expression is a call of `f` with these arguments, none of which has a keyword or a star. -/
structure Calls (e f : SyntaxTree) (args : List SyntaxTree) : Prop where
  isCall : e.isCall = true
  callee : e.callee = f
  arguments : e.arguments.map argument? = args.map (some ∘ Argument.positional)

/-- The expression calls the function behind the hidden method of an interface for the implementing type.  The interface
is in parentheses if it has to be. -/
def RunsTests (e : SyntaxTree) (inst : Instantiation) : Prop :=
  ∃ function method receiver, e.Calls function [inst.implementer.bare] ∧
    function.member? = some (method, "__func__") ∧ method.member? = some (receiver, "_tested_trait_test_all") ∧
    receiver.isPrimary = true ∧ receiver.core.bare = inst.interface.core.bare

end SyntaxTree

/-- The decorator is the marker that runs tests in place: by itself or after the name of a module, called or not. -/
def Decorator.runsInline (aliases : List String) (d : Decorator) : Bool :=
  d.expression.callee.dotted?.any fun name => name == "run_inline" || aliases.any fun a => name == a ++ ".run_inline"

end Source

/-- The function has the name, no decorators and no parameters, and its body is one line with the expression. -/
structure Function.Wraps (f : Function) (name : String) (e : SyntaxTree) : Prop where
  name : f.name = name
  plain : f.prelude.decorators = [] ∧ f.head.async = none ∧ f.head.returns? = none
  parameters : (SyntaxTree.node .parameters f.head.parameters).items = []
  body : ∃ opening indent line footer, f.body = .block opening indent [line] footer ∧ line.expression? = some e

/-- The statement is the function of the name that runs the tests of an instantiation. -/
def Source.Statement.IsTestFunction (s : Statement) (name : String) (inst : Instantiation) : Prop :=
  ∃ f e, s.function? = some f ∧ f.Wraps name e ∧ e.RunsTests inst

/-- The statement is a call, without arguments, of the function that another statement defines. -/
def Source.Statement.CallsFunction (s definition : Statement) : Prop :=
  ∃ e f, s.expression? = some e ∧ definition.function? = some f ∧ e.Calls (.ofName f.name) []

/-! ## Calls -/

/-- White space after an expression in parentheses is outside of them. -/
theorem bare_core_bare (t : SyntaxTree) : t.bare.core.bare = t.core.bare := by
  cases t with
  | leaf t => rfl
  | node k children =>
    have hnode := bare_bare (.node k children)
    cases k with
    | paren =>
      rcases children with _ | ⟨a, _ | ⟨inner, _ | ⟨b, _ | ⟨c, rest⟩⟩⟩⟩
      · exact hnode
      · exact hnode
      · exact hnode
      · rfl
      · cases rest <;> exact hnode
    | _ => exact hnode

theorem guarded_core_bare (t : SyntaxTree) : t.guarded.bare.core.bare = t.core.bare := by
  have hparen : (SyntaxTree.node .paren [.ofOperator "(", t.bare, .ofOperator ")"]).bare.core.bare = t.core.bare :=
    bare_core_bare t
  cases t with
  | leaf t =>
    rw [SyntaxTree.guarded]
    split_ifs
    · exact bare_core_bare _
    · exact hparen
  | node k children =>
    rw [SyntaxTree.guarded]
    split_ifs
    · exact bare_core_bare _
    · exact hparen

theorem isPrimary_bare (t : SyntaxTree) : t.bare.isPrimary = t.isPrimary := by
  cases t with
  | leaf t => rfl
  | node k children =>
    rcases children with _ | ⟨c, _ | ⟨d, children⟩⟩
    · rfl
    · cases c <;> rfl
    · rfl

theorem isPrimary_guarded (t : SyntaxTree) : t.guarded.isPrimary = true := by
  cases t with
  | leaf t =>
    rw [SyntaxTree.guarded]
    split_ifs with hname
    · exact hname
    · rfl
  | node k children =>
    rw [SyntaxTree.guarded]
    split_ifs with hprimary
    · simpa [SyntaxTree.isPrimary, or_assoc] using hprimary
    · rfl

theorem argument?_ofArguments (args : List SyntaxTree) :
    (SyntaxTree.ofArguments args).map SyntaxTree.argument? =
      (args.map SyntaxTree.bare).map (some ∘ Argument.positional) := by
  induction args with
  | nil => rfl
  | cons e args ih =>
    cases args with
    | nil => rfl
    | cons f args => exact congrArg (_ :: ·) ih

/-- A generated call is read as the call it was made to be. -/
theorem calls_apply (f : SyntaxTree) (args : List SyntaxTree) :
    (f.apply args).Calls f.bare (args.map SyntaxTree.bare) where
  isCall := rfl
  callee := rfl
  arguments := by
    have hall : ∀ a ∈ SyntaxTree.ofArguments args, a.argument?.isSome = true := by
      intro a ha
      have hmem := List.mem_map_of_mem (f := SyntaxTree.argument?) ha
      rw [argument?_ofArguments] at hmem
      obtain ⟨e, -, he⟩ := List.mem_map.mp hmem
      rw [← he]
      rfl
    have harguments : (f.apply args).arguments = SyntaxTree.ofArguments args := by
      change (SyntaxTree.ofOperator "(" :: (SyntaxTree.ofArguments args ++ [.ofOperator ")"])).filter
        (fun a => a.argument?.isSome) = _
      rw [List.filter_cons_of_neg (by decide), List.filter_append, List.filter_eq_self.mpr hall]
      exact List.append_nil _
    rw [harguments, argument?_ofArguments]

theorem runsTests_invocation (inst : Instantiation) : (Implementation.invocation inst).RunsTests inst :=
  ⟨_, _, _, calls_apply _ _, rfl, rfl, (isPrimary_bare _).trans (isPrimary_guarded _), guarded_core_bare _⟩

/-! ## Functions -/

theorem isTestFunction_functionFor (name : String) (inst : Instantiation) :
    (Implementation.functionFor name inst).IsTestFunction name inst := by
  refine ⟨_, _, rfl, ⟨rfl, ⟨rfl, rfl, rfl⟩, rfl, ⟨_, _, _, _, rfl, rfl⟩⟩, runsTests_invocation inst⟩

/-- The functions are those of the instantiations, numbered one after the other. -/
theorem functions_forall₂ (beginning : String) (next : Nat) (insts : List Instantiation) :
    List.Forall₂ (fun s p => s.IsTestFunction (Naming.synthesized beginning p.1.interface p.2) p.1)
      (List.zipWith Implementation.functionFor
        ((insts.zipIdx next).map fun p => Naming.synthesized beginning p.1.interface p.2) insts)
      (insts.zipIdx next) := by
  induction insts generalizing next with
  | nil => exact .nil
  | cons inst insts ih => exact .cons (isTestFunction_functionFor _ inst) (ih (next + 1))

/-- The calls are those of the functions, one after the other. -/
theorem calls_forall₂ {names : List String} {insts : List Instantiation} (hlength : names.length = insts.length) :
    List.Forall₂ Statement.CallsFunction (Implementation.calls names)
      (List.zipWith Implementation.functionFor names insts) := by
  have hcall (name : String) : ((SyntaxTree.ofName name).apply []).Calls (.ofName name) [] := calls_apply _ []
  have hlines : ∀ (names : List String) (insts : List Instantiation), names.length = insts.length →
      List.Forall₂ Statement.CallsFunction
        (names.map fun n => Statement.ofExpression ((SyntaxTree.ofName n).apply []))
        (List.zipWith Implementation.functionFor names insts) := by
    intro names
    induction names with
    | nil => exact fun _ _ => .nil
    | cons name names ih =>
      intro insts hlength
      cases insts with
      | nil => cases hlength
      | cons inst insts => exact .cons ⟨_, _, rfl, rfl, hcall name⟩ (ih insts (Nat.succ.inj hlength))
  -- Only the first line is written in another way: an empty line stands before it.
  cases names with
  | nil => exact .nil
  | cons name names =>
    cases insts with
    | nil => cases hlength
    | cons inst insts => exact .cons ⟨_, _, rfl, rfl, hcall name⟩ (hlines names insts (Nat.succ.inj hlength))

theorem functionNames_zipIdx (discovery : String) (next : Nat) (i : Implementation) :
    i.functionNames discovery next = (i.instantiations.zipIdx next).map fun p =>
      Naming.synthesized (if i.inline then "" else discovery) p.1.interface p.2 := by
  rw [List.zipIdx_eq_map_add, List.map_map]
  rfl

/-! ## The class -/

theorem marks_runInline (aliases : List String) (d : Decorator) :
    Marker.runInline.marks aliases d = d.runsInline aliases := by
  unfold Marker.marks Decorator.runsInline
  cases d.expression.callee.dotted? with
  | none => rfl
  | some name =>
    have hspelling (a : String) : a ++ "." ++ "run_inline" = a ++ ".run_inline" := String.append_assoc ..
    change ("run_inline" :: aliases.map fun a => a ++ "." ++ "run_inline").contains name = _
    simp only [hspelling, List.contains_eq_any_beq, List.any_cons, List.any_map, Function.comp_def, Option.any_some]

theorem strip_runInline (aliases : List String) (ds : List Decorator) :
    Marker.strip aliases [.runInline] ds =
      (ds.filter (!·.runsInline aliases), ds.filter (·.runsInline aliases)) := by
  simp [Marker.strip, List.partition_eq_filter_filter, marks_runInline, Function.comp_def]

/-- Whether a class has the marker that runs tests in place. -/
def Class.runsInline (aliases : List String) (c : Class) : Bool :=
  c.prelude.decorators.any (·.runsInline aliases)

/-- The class without the markers that run tests in place. -/
def Class.withoutRunInline (aliases : List String) (c : Class) : Class :=
  { c with prelude := { c.prelude with decorators := c.prelude.decorators.filter (!·.runsInline aliases) } }

/-- An implementation is a class as it stands in the text, but for the markers that run its tests in place. -/
theorem read_class {aliases typeVariables : List String} {args : List SyntaxTree} {item : Statement}
    {i : Implementation} (h : Implementation.read aliases typeVariables args item = .ok i) :
    ∃ c : Class, item = c.statement ∧ i.definition = c.withoutRunInline aliases ∧ i.inline = c.runsInline aliases := by
  unfold Implementation.read at h
  cases hc : item.class? with
  | none =>
    rw [hc] at h
    cases h
  | some c =>
    have hitem : item = c.statement := by
      cases item <;> cases hc
      rfl
    rw [hc] at h
    obtain ⟨listed, -, h⟩ := Computation.except_bind_eq_ok (h : (instantiations args >>= _) = _)
    obtain ⟨ancestry, -, h⟩ := Computation.except_bind_eq_ok h
    cases hinterface : ancestry.interface with
    | none =>
      rw [hinterface] at h
      cases h
    | some interface =>
      rw [hinterface] at h
      obtain ⟨insts, -, h⟩ := Computation.except_bind_eq_ok h
      rw [strip_runInline] at h
      cases h
      refine ⟨c, hitem, rfl, ?_⟩
      rw [Class.runsInline, Bool.eq_iff_iff]
      simp

/-- An implementation is expanded into its class, which loses just the markers that run tests in place; a function for
each instantiation, which has its place in the numbering in its name; and, if such a marker was there, a call of each
function. -/
theorem expanded_class_functions_calls (aliases typeVariables : List String) (args : List SyntaxTree) (item : Statement)
    (discovery : String) (next : Nat) (i : Implementation)
    (h : Implementation.read aliases typeVariables args item = .ok i) :
    ∃ (c : Class) (functions calls : List Statement), item = c.statement ∧
      i.expanded discovery next = (c.withoutRunInline aliases).statement :: (functions ++ calls) ∧
      List.Forall₂
        (fun s p => s.IsTestFunction ((if c.runsInline aliases then "" else discovery) ++ "trait_impl_" ++
          p.1.interface.lastSegment?.getD "Trait" ++ "_" ++ p.2.repr) p.1)
        functions (i.instantiations.zipIdx next) ∧
      List.Forall₂ Statement.CallsFunction calls (if c.runsInline aliases then functions else []) ∧
      (i.expanded discovery next).length =
        1 + if c.runsInline aliases then 2 * i.instantiations.length else i.instantiations.length := by
  obtain ⟨c, hitem, hdefinition, hinline⟩ := read_class h
  have hlength : (i.functionNames discovery next).length = i.instantiations.length := by
    simp [Implementation.functionNames]
  have hfunctions := functions_forall₂ (if i.inline then "" else discovery) next i.instantiations
  rw [← functionNames_zipIdx, hinline] at hfunctions
  have hcalls : List.Forall₂ Statement.CallsFunction
      (if c.runsInline aliases then Implementation.calls (i.functionNames discovery next) else [])
      (if c.runsInline aliases then
        List.zipWith Implementation.functionFor (i.functionNames discovery next) i.instantiations else []) := by
    split_ifs
    · exact calls_forall₂ hlength
    · exact .nil
  have hexpanded : i.expanded discovery next = (c.withoutRunInline aliases).statement ::
      (List.zipWith Implementation.functionFor (i.functionNames discovery next) i.instantiations ++
        if c.runsInline aliases then Implementation.calls (i.functionNames discovery next) else []) := by
    rw [Implementation.expanded, hdefinition, hinline]
    rfl
  refine ⟨c, _, _, hitem, hexpanded, hfunctions, hcalls, ?_⟩
  rw [hexpanded, List.length_cons, List.length_append, hcalls.length_eq, hfunctions.length_eq, List.length_zipIdx]
  split_ifs
  · rw [hfunctions.length_eq, List.length_zipIdx]
    omega
  · rw [List.length_nil]
    omega

/-! ## Example -/

/-- An argument that is a pair. -/
def pairOf (i : Instantiation) : SyntaxTree :=
  .node .arg [.node .tuple [.ofOperator "(", i.implementer, .ofSpaced ",", i.interface, .ofOperator ")"]]

/-- The instantiation `(Store[int], Writer[int])`. -/
def intStore : Instantiation where
  implementer := subscriptOf (.ofName "Store") [.ofName "int"]
  interface := subscriptOf (.ofName "Writer") [.ofName "int"]

/-- The instantiation `(Store[str], Writer or Sink)`, with an interface that has no short name. -/
def textStore : Instantiation where
  implementer := subscriptOf (.ofName "Store") [.ofName "str"]
  interface := .node .boolean [.ofWord "Writer", .ofWord "or", .ofName "Sink"]

/-- A class whose tests are run in place, under another decorator. -/
def inlineStore : Class :=
  { storeClass with
    prelude := { decorators := [plainDecorator "final",
      { sign := { kind := .operator, text := "@" }
        expression := ((SyntaxTree.ofName "tt").dot "run_inline").apply [] }] } }

theorem expanded_class_functions_calls_inlineStore :
    ∃ i, Implementation.read ["tt"] ["S", "T", "V"] [pairOf intStore, pairOf textStore] inlineStore.statement = .ok i ∧
      ∃ f g callF callG, i.expanded "test_" 7 =
        [(inlineStore.withoutRunInline ["tt"]).statement, f, g, callF, callG] ∧
        f.IsTestFunction "trait_impl_Writer_7" intStore ∧ g.IsTestFunction "trait_impl_Trait_8" textStore ∧
        callF.CallsFunction f ∧ callG.CallsFunction g := by
  obtain ⟨i, hread, hinsts⟩ : ∃ i, Implementation.read ["tt"] ["S", "T", "V"] [pairOf intStore, pairOf textStore]
      inlineStore.statement = .ok i ∧ i.instantiations = [intStore, textStore] := ⟨_, rfl, rfl⟩
  obtain ⟨c, functions, calls, hitem, hexpanded, hfunctions, hcalls, -⟩ :=
    expanded_class_functions_calls ["tt"] ["S", "T", "V"] _ inlineStore.statement "test_" 7 i hread
  obtain rfl : inlineStore = c := Option.some.inj (congrArg Statement.class? hitem)
  have hinline : inlineStore.runsInline ["tt"] = true := by decide
  rw [hinline, if_pos rfl] at hcalls
  rw [hinsts] at hfunctions
  rcases hfunctions with _ | ⟨hf, _ | ⟨hg, _ | _⟩⟩
  rcases hcalls with _ | ⟨hcallF, _ | ⟨hcallG, _ | _⟩⟩
  exact ⟨i, hread, _, _, _, _, hexpanded, hf, hg, hcallF, hcallG⟩

end Conformance
