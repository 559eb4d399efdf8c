import Conformance.Proofs.Interface.Basic
import Conformance.Proofs.Program.Reading

/-!
# No test is lost

The expansion of an interface moves its tests into the hidden method and leaves everything else in place:

    expandInterface aliases args c.statement = .ok c' → Preserves aliases c c'      (expandInterface_preserves)

`Preserves` says of statements that are taken over that they are the same, and of statements that are generated
what they are read as.  The tests are taken one by one (`List.Forall₂`), so none is left out, repeated or moved.
-/

namespace Conformance

open Source

/-! ## White space at the end of a line -/

/-- A class head without the white space after its colon. -/
def Source.ClassHead.bare (h : ClassHead) : ClassHead :=
  { h with rest := SyntaxTree.mapLastAll (fun t => { t with after := {} }) h.rest }

/-- An argument without the white space after it. -/
def Source.Argument.bare : Argument → Argument
  | .positional value => .positional value.bare
  | .keyword name value => .keyword name value.bare
  | .starred value => .starred value.bare
  | .doubleStarred value => .doubleStarred value.bare

mutual

theorem mapLast_mapLast (f g : Token → Token) : ∀ t : SyntaxTree, (t.mapLast f).mapLast g = t.mapLast (g ∘ f)
  | .leaf _ => rfl
  | .node k cs => congrArg (SyntaxTree.node k) (mapLastAll_mapLastAll f g cs)

theorem mapLastAll_mapLastAll (f g : Token → Token) : ∀ ts : List SyntaxTree,
    SyntaxTree.mapLastAll g (SyntaxTree.mapLastAll f ts) = SyntaxTree.mapLastAll (g ∘ f) ts
  | [] => rfl
  | [t] => congrArg (fun u => [u]) (mapLast_mapLast f g t)
  | t :: u :: ts => by
    have htail := mapLastAll_mapLastAll f g (u :: ts)
    obtain ⟨v, vs, hv⟩ : ∃ v vs, SyntaxTree.mapLastAll f (u :: ts) = v :: vs := by
      cases ts with
      | nil => exact ⟨_, _, rfl⟩
      | cons w ts => exact ⟨_, _, rfl⟩
    rw [SyntaxTree.mapLastAll, SyntaxTree.mapLastAll, ← htail, hv, SyntaxTree.mapLastAll]

end

theorem bare_bare (t : SyntaxTree) : t.bare.bare = t.bare :=
  mapLast_mapLast _ _ t

/-- The first child of a kind is the same, or it is the last tree. -/
theorem childOf?_mapLastAll (k : Kind) (f : Token → Token) : ∀ ts : List SyntaxTree,
    childOf? k (SyntaxTree.mapLastAll f ts) = childOf? k ts ∨
      ∃ t, childOf? k ts = some t ∧ childOf? k (SyntaxTree.mapLastAll f ts) = some (t.mapLast f)
  | [] => .inl rfl
  | [t] => by
    have his : (t.mapLast f).is k = t.is k := by cases t <;> rfl
    unfold SyntaxTree.mapLastAll childOf?
    cases ht : t.is k with
    | false => exact .inl (by simp [his, ht])
    | true => exact .inr ⟨t, by simp [ht], by simp [his, ht]⟩
  | t :: u :: ts => by
    rw [SyntaxTree.mapLastAll]
    cases ht : t.is k with
    | true => exact .inl (by simp [childOf?, ht])
    | false =>
      have hskip : ∀ us, childOf? k (t :: us) = childOf? k us := fun us => by simp [childOf?, ht]
      rw [hskip, hskip]
      exact childOf?_mapLastAll k f (u :: ts)

theorem argument?_bare (t : SyntaxTree) : t.bare.argument?.map Argument.bare = t.argument?.map Argument.bare := by
  cases t with
  | leaf _ => rfl
  | node k cs =>
    cases k with
    | arg =>
      match cs with
      | [] => rfl
      | [value] => exact congrArg (some ∘ Argument.positional) (bare_bare value)
      | _ :: _ :: _ => rfl
    | keywordArg =>
      match cs with
      | [] => rfl
      | [.leaf _] => rfl
      | [.node _ _] => rfl
      | [.leaf _, _] => rfl
      | [.node _ _, _] => rfl
      | [.leaf name, _, value] => exact congrArg (some ∘ Argument.keyword name) (bare_bare value)
      | [.node _ _, _, _] => rfl
      | .leaf _ :: _ :: _ :: _ :: _ => rfl
      | .node _ _ :: _ :: _ :: _ :: _ => rfl
    | starArg =>
      match cs with
      | [] => rfl
      | [_] => rfl
      | [_, value] => exact congrArg (some ∘ Argument.starred) (bare_bare value)
      | _ :: _ :: _ :: _ => rfl
    | doubleStarArg =>
      match cs with
      | [] => rfl
      | [_] => rfl
      | [_, value] => exact congrArg (some ∘ Argument.doubleStarred) (bare_bare value)
      | _ :: _ :: _ :: _ => rfl
    | _ => rfl

theorem arguments_bare : ∀ ts : List SyntaxTree,
    ((SyntaxTree.mapLastAll (fun t => { t with after := {} }) ts).filterMap SyntaxTree.argument?).map Argument.bare =
      (ts.filterMap SyntaxTree.argument?).map Argument.bare
  | [] => rfl
  | [t] => by
    have h := argument?_bare t
    rw [List.map_filterMap, List.map_filterMap, SyntaxTree.mapLastAll]
    simp only [List.filterMap_cons, List.filterMap_nil]
    rw [← SyntaxTree.bare, h]
  | t :: u :: ts => by
    have htail := arguments_bare (u :: ts)
    rw [SyntaxTree.mapLastAll, List.filterMap_cons, List.filterMap_cons]
    cases t.argument? with
    | none => exact htail
    | some a => exact congrArg (a.bare :: ·) htail

/-- The bases of a class do not depend on the white space after its head, but for that after the last of them. -/
theorem bases_bare (h : ClassHead) : h.bare.bases.map Argument.bare = h.bases.map Argument.bare := by
  unfold ClassHead.bases ClassHead.bare
  rcases childOf?_mapLastAll .bases (fun t => { t with after := {} }) h.rest with hsame | ⟨t, ht, hlast⟩
  · rw [hsame]
  · rw [hlast, ht]
    cases t with
    | leaf _ => rfl
    | node k cs => exact arguments_bare cs

/-! ## Specification -/

/-- The arguments fit the parameters of a function: each parameter is plain, and there is none or just the one for
the implementing type. -/
structure Fits (f : Function) (args : List Expr) : Prop where
  plain : ∀ p ∈ (Signature.ofHead f.head).parameters, p.kind = .plain
  length : args.length = (Signature.ofHead f.head).parameters.length
  arguments : args = [] ∨ args = [.name Naming.implementer]

/-- The lines call a function once, by its name and with fitting arguments, and hand over what comes of it. -/
inductive CallsOnce (f : Function) : List Statement → Prop
  | standard {line : Statement} {args : List Expr} (fits : Fits f args)
      (reads : Stmt.ofStatement line = [.eval (.call (helperNamed "expect_unit")
        [.call (.ofTree (.ofName f.name)) args [], .constant (.text f.name)] [])]) :
      CallsOnce f [line]
  | result {line next : Statement} {args : List Expr} {hint : Expr} (fits : Fits f args)
      (returns : f.head.returns?.map Expr.ofTree = some hint)
      (reads : Stmt.ofStatement line =
        [.annotate Naming.result hint (some (.call (.ofTree (.ofName f.name)) args []))])
      (unwraps : Stmt.ofStatement next = [.eval (.call (helperNamed "unwrap") [.name Naming.result] [])]) :
      CallsOnce f [line, next]
  | panic {line : Statement} {args : List Expr} (expected : Option Expr) (fits : Fits f args)
      (reads : Stmt.ofStatement line = [.eval (.call (helperNamed "expect_panic")
        (.call (helperNamed "catch_unwind") (.ofTree (.ofName f.name) :: args) [] :: expected.toList) [])]) :
      CallsOnce f [line]

/-- A test as it is moved: its markers and binding decorators are gone, the lines before it are one empty line and
its comments, and all else is the same. -/
structure Moved (aliases : List String) (f g : Function) : Prop where
  head : g.head = f.head
  body : g.body = f.body
  gap : g.prelude.gap = f.prelude.gap
  decorators : g.prelude.decorators = f.prelude.decorators.filter fun d =>
    !(Marker.test.marks aliases d || Marker.shouldPanic.marks aliases d || Marker.requires.marks aliases d ||
      marksBinding d)
  lead : g.prelude.lead = Line.empty :: f.prelude.lead.filter fun l => l.comment != ""

/-- The block of a test: the test, the line that announces it, and the lines that call it once. -/
inductive RunsTest (aliases : List String) (interface : String) (f : Function) : List Statement → Prop
  | intro {g : Function} {progress : Statement} {run : List Statement} (moved : Moved aliases f g)
      (announces : Stmt.ofStatement progress = [prints ("test " ++ interface ++ "::" ++ f.name)])
      (calls : CallsOnce f run) :
      RunsTest aliases interface f (g.statement :: progress :: run)

/-- The method that runs some tests: it imports the helpers, checks requirements, says how many tests there are,
and then has one block for each test in turn. -/
inductive HiddenMethod (aliases : List String) (interface : String) (tests : List Function) : Statement → Prop
  | intro {prelude : Prelude} {head : FunctionHead} {imports checks summary : Statement}
      {blocks : List (List Statement)} {requirements : List Expr}
      (decorators : prelude.decorators.map (fun d => Expr.ofTree d.expression) = [.name "classmethod"])
      (notAsync : head.async = none)
      (signature : Signature.ofHead head =
        { name := "_tested_trait_test_all", parameters := [{ name := "_tested_trait_cls" }] })
      (imported : Stmt.ofStatement imports = [.importing ["tested_trait", "runtime"] (some Naming.helpers)])
      (checked : Stmt.ofStatement checks = [.eval (.call (helperNamed "check_requirements")
        (.name "_tested_trait_cls" :: helperNamed "Concrete" :: requirements) [])])
      (announced : Stmt.ofStatement summary = [prints (announcement interface tests.length)])
      (runs : List.Forall₂ (RunsTest aliases interface) tests blocks) :
      HiddenMethod aliases interface tests
        (.ofFunction prelude head (.block {} none ([imports, checks, summary] ++ blocks.flatten) []))

/-- An expanded class: the members that are no tests, as they were, and the hidden method after them.  A body on the
line of the head becomes a line of its own. -/
inductive Preserves (aliases : List String) (c : Class) : Class → Prop
  | block {opening : LineEnd} {indent : Option String} {members : List Statement} {footer : List Line}
      {method : Statement} (body : c.body = .block opening indent members footer)
      (runs : HiddenMethod aliases c.name (members.filterMap (test? aliases)) method) :
      Preserves aliases c { c with
        body := .block opening indent (members.filter (fun s => (test? aliases s).isNone) ++ [method]) footer }
  | inline {line line' : SyntaxTree} {stop : LineEnd} {head : ClassHead} {method : Statement}
      (body : c.body = .inline line stop) (sameHead : head.bare = c.head.bare) (sameLine : line'.bare = line.bare)
      (runs : HiddenMethod aliases c.name [] method) :
      Preserves aliases c { c with head, body := .block {} none [.simple [] line' {}, method] [] }

/-! ## The hidden method -/

theorem Accepted.fits {aliases : List String} {f : Function} {t : AssociatedTest} (h : Accepted aliases f t) :
    Fits f (Runner.givenTo t) := by
  obtain ⟨hlen, hplain⟩ := parameters_of_takesType? h.takesType
  refine ⟨hplain, ?_, ?_⟩
  · rw [hlen, Runner.givenTo]
    cases t.takesType <;> rfl
  · rw [Runner.givenTo]
    cases t.takesType
    · exact .inl rfl
    · exact .inr rfl

theorem Accepted.callsOnce {aliases : List String} {f : Function} {t : AssociatedTest} (h : Accepted aliases f t) :
    CallsOnce f (Runner.run t) := by
  have hlines := Runner.map_ofStatement_run t
  unfold Runner.ran at hlines
  rw [h.name] at hlines
  cases hkind : t.kind with
  | standard =>
    rw [hkind] at hlines
    obtain ⟨line, hrun, hline⟩ := List.map_eq_singleton_iff.mp hlines
    rw [hrun]
    exact .standard h.fits hline
  | returnsResult output =>
    rw [hkind] at hlines
    obtain ⟨line, rest, hrun, hline, hrest⟩ := List.map_eq_cons_iff.mp hlines
    obtain ⟨next, rfl, hnext⟩ := List.map_eq_singleton_iff.mp hrest
    have hreturns := returns?_of_testKind (hkind ▸ h.kind)
    rw [hrun]
    exact .result h.fits (by rw [hreturns, Option.map_some]) hline hnext
  | shouldPanic expected =>
    rw [hkind] at hlines
    obtain ⟨line, hrun, hline⟩ := List.map_eq_singleton_iff.mp hlines
    rw [hrun]
    refine .panic (expected.map Expr.ofTree) h.fits ?_
    rw [hline, Option.toList_map]

theorem Accepted.moved {aliases : List String} {f : Function} {t : AssociatedTest} (h : Accepted aliases f t) :
    ∃ g : Function, Runner.nested t.function = g.statement ∧ Moved aliases f g := by
  rw [Runner.nested, h.function]
  refine ⟨{ f with prelude := { f.prelude with lead := _, decorators := _ } }, rfl, ?_⟩
  refine ⟨rfl, rfl, rfl, ?_, rfl⟩
  show (Marker.strip aliases [.test, .shouldPanic, .requires] f.prelude.decorators).1.filter _ = _
  rw [Marker.strip, List.partition_eq_filter_filter, List.filter_filter]
  congr 1
  funext d
  cases marksBinding d <;> simp [Bool.or_assoc]

theorem Accepted.runsTest {aliases : List String} {f : Function} {t : AssociatedTest} (h : Accepted aliases f t)
    (interface : String) : RunsTest aliases interface f (Runner.block interface t) := by
  obtain ⟨g, hg, hmoved⟩ := h.moved
  unfold Runner.block
  rw [hg]
  refine .intro hmoved ?_ h.callsOnce
  rw [Runner.ofStatement_printing, Runner.label, h.name]

theorem method_hidden {aliases : List String} {fs : List Function} {tests : List AssociatedTest}
    (h : List.Forall₂ (Accepted aliases) fs tests) (interface : String) :
    HiddenMethod aliases interface fs (Runner.method interface tests) := by
  have hruns : List.Forall₂ (RunsTest aliases interface) fs (tests.map (Runner.block interface)) := by
    rw [List.forall₂_map_right_iff]
    exact h.imp fun f t haccepted => haccepted.runsTest interface
  have hchecked : Stmt.ofStatement
      (.ofExpression ((Runner.helper "check_requirements").apply (Runner.implementer :: Runner.union tests))) =
      [.eval (.call (helperNamed "check_requirements") (.name Naming.implementer ::
        (Runner.union tests).map Expr.ofTree) [])] := by
    rw [ofStatement_ofExpression, ofTree_apply, Runner.ofTree_helper, List.map_cons, Runner.ofTree_implementer]
  unfold Runner.union at hchecked
  rw [List.map_cons, Runner.ofTree_helper] at hchecked
  unfold Runner.method
  rw [List.flatMap_def]
  refine .intro ?_ rfl rfl Runner.ofStatement_importHelpers hchecked ?_ hruns
  · rw [List.map_map, List.map_singleton]
    exact congrArg (fun e => [e]) (ofTree_ofName (by decide))
  · rw [Runner.ofStatement_printing, Runner.summary_eq, h.length_eq]

/-! ## The class -/

theorem ownLine_eq (line : SyntaxTree) : ∃ line', ownLine line = .simple [] line' {} ∧ line'.bare = line.bare := by
  unfold ownLine
  cases line.children.getLast?.any (SyntaxTree.isOperator ";") with
  | true => exact ⟨line, rfl, rfl⟩
  | false => exact ⟨line.bare, rfl, bare_bare line⟩

/-- What the class of an interface is, once its tests are accepted. -/
theorem expanded_preserves {aliases : List String} (c : Class) {tests : List AssociatedTest}
    (h : List.Forall₂ (Accepted aliases) (c.asBlock.2.body.filterMap (test? aliases)) tests) :
    Preserves aliases c (c.withoutTests aliases tests).expanded := by
  obtain ⟨prelude, head, body⟩ := c
  cases body with
  | block opening indent members footer => exact .block rfl (method_hidden h head.name.text)
  | inline line stop =>
    obtain ⟨line', hown, hline⟩ := ownLine_eq line
    have hbody : (Class.mk prelude head (.inline line stop)).asBlock.2.body = [.simple [] line' {}] := by
      rw [← hown]
      rfl
    have hhead : head.bare.bare = head.bare :=
      congrArg (ClassHead.mk head.word head.name) (mapLastAll_mapLastAll _ _ head.rest)
    rw [hbody] at h
    rw [Class.withoutTests, hbody]
    exact .inline rfl hhead hline (method_hidden h head.name.text)

/-- The expansion of an interface keeps the class but for its tests, and each of these is run once, in order. -/
theorem expandInterface_preserves (aliases : List String) (args : List SyntaxTree) (c : Class) {c' : Class}
    (h : expandInterface aliases args c.statement = .ok c') :
    args = [] ∧ c'.name = c.name ∧ c'.head.bases.map Argument.bare = c.head.bases.map Argument.bare ∧
      c'.prelude.decorators = c.prelude.decorators ∧ Preserves aliases c c' := by
  obtain ⟨rfl, i, hi, rfl⟩ := expandInterface_eq_ok h
  obtain ⟨tests, htests, -, rfl⟩ := Interface.ofClass_eq_ok hi
  have hpreserves := expanded_preserves c htests
  have hbases : c.asBlock.1.bases.map Argument.bare = c.head.bases.map Argument.bare := by
    obtain ⟨prelude, head, body⟩ := c
    cases body with
    | block => rfl
    | inline => exact bases_bare head
  have hname : c.asBlock.1.name = c.head.name := by
    obtain ⟨prelude, head, body⟩ := c
    cases body <;> rfl
  exact ⟨rfl, congrArg Token.text hname, hbases, rfl, hpreserves⟩

/-- An interface with a member between two tests. -/
def shapeClass : Class :=
  decoratedClass "final" "Shape" ["Base"]
    [(emptyTest "closes").statement, .ofExpression (.ofName "sides"), (emptyTest "turns").statement]

theorem expandInterface_preserves_shape :
    ∃ c', expandInterface [] [] shapeClass.statement = .ok c' ∧ c'.name = "Shape" ∧ Preserves [] shapeClass c' := by
  have h := expandInterface_preserves [] [] shapeClass rfl
  exact ⟨_, rfl, h.2.1, h.2.2.2.2⟩

end Conformance
