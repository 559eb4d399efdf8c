import Mathlib.Data.List.Forall2
import Conformance.Proofs.Computation
import Conformance.Interface.Runner
import Conformance.Program.Reading

/-!
# What an accepted interface is known to satisfy

Expanding an interface is reading its tests one after the other and writing them down again.  `read_eq_ok` says
what the rules for a test leave of it, `ofClass_eq_ok` what is left of a class, and `expandInterface_eq_ok` when a
class is expanded at all.
-/

namespace Conformance

open Source

theorem Computation.mapM_eq_ok {ε α β : Type} {f : α → Except ε β} {xs : List α} {ys : List β}
    (h : xs.mapM f = .ok ys) : List.Forall₂ (fun x y => f x = .ok y) xs ys := by
  induction xs generalizing ys with
  | nil =>
    cases h
    exact .nil
  | cons x xs ih =>
    rw [List.mapM_cons] at h
    obtain ⟨y, hy, htail⟩ := Computation.except_bind_eq_ok h
    obtain ⟨rest, hrest, hout⟩ := Computation.except_bind_eq_ok htail
    cases hout
    exact .cons hy (ih hrest)

/-- The items are taken one after the other, and the first that is refused is the one the error is about. -/
theorem Computation.mapM_eq_error {ε α β : Type} {f : α → Except ε β} {xs : List α} {e : ε} :
    xs.mapM f = .error e ↔
      ∃ before x after, xs = before ++ x :: after ∧ (∀ y ∈ before, ∃ z, f y = .ok z) ∧ f x = .error e := by
  induction xs with
  | nil => simp [pure, Except.pure]
  | cons x xs ih =>
    rw [List.mapM_cons, Computation.except_bind_eq_error]
    constructor
    · rintro (hx | ⟨y, hy, hrest⟩)
      · exact ⟨[], x, xs, rfl, by simp, hx⟩
      · obtain hrest | ⟨ys, -, hend⟩ := Computation.except_bind_eq_error.mp hrest
        · obtain ⟨before, x', after, rfl, hbefore, hx'⟩ := ih.mp hrest
          exact ⟨x :: before, x', after, rfl, List.forall_mem_cons.mpr ⟨⟨y, hy⟩, hbefore⟩, hx'⟩
        · cases hend
    · rintro ⟨before, x', after, hsplit, hbefore, hx'⟩
      cases before with
      | nil =>
        cases hsplit
        exact .inl hx'
      | cons first before =>
        cases hsplit
        obtain ⟨⟨y, hy⟩, hbefore⟩ := List.forall_mem_cons.mp hbefore
        exact .inr ⟨y, hy, Computation.except_bind_eq_error.mpr (.inl (ih.mpr ⟨before, x', after, rfl, hbefore, hx'⟩))⟩

/-- A rule that lets its input pass is not violated. -/
theorem rule_eq_ok {p : Prop} [Decidable p] {v : Violation} {e : Option Extent} {α β : Type}
    {k : β → Except Failure α} {x : Except Failure α} {a : α}
    (h : (if p then violated v e >>= k else x) = .ok a) : ¬p ∧ x = .ok a := by
  by_cases hp : p
  · rw [if_pos hp] at h
    cases h
  · rw [if_neg hp] at h
    exact ⟨hp, h⟩

/-! ## One test -/

/-- What the rules say of a function that is accepted as a test. -/
structure Accepted (aliases : List String) (f : Function) (t : AssociatedTest) : Prop where
  notAsync : f.head.async = none
  notReserved : Naming.reserved.isPrefixOf f.name = false
  hasBody : f.prelude.decorators.any marksAbstract = false ∧ isStub f.body = false
  takesType : takesType? f.head = some t.takesType
  kind : testKind aliases f = .ok t.kind
  requirements : requirementsOf aliases f = .ok t.requirements
  function : t.function =
    { f with prelude := { f.prelude with decorators := keptDecorators aliases f.prelude.decorators } }

theorem AssociatedTest.read_eq_ok {aliases : List String} {f : Function} {t : AssociatedTest}
    (h : AssociatedTest.read aliases f = .ok t) : Accepted aliases f t := by
  unfold AssociatedTest.read at h
  obtain ⟨hasync, h⟩ := rule_eq_ok h
  obtain ⟨hreserved, h⟩ := rule_eq_ok h
  obtain ⟨hstub, h⟩ := rule_eq_ok h
  cases htakes : takesType? f.head with
  | none =>
    rw [htakes] at h
    cases h
  | some takesType =>
    rw [htakes] at h
    obtain ⟨kind, hkind, h⟩ := Computation.except_bind_eq_ok h
    obtain ⟨requirements, hrequirements, h⟩ := Computation.except_bind_eq_ok h
    cases h
    exact
      { notAsync := by simpa using hasync
        notReserved := by simpa using hreserved
        hasBody := by simpa using hstub
        takesType := htakes
        kind := hkind
        requirements := hrequirements
        function := rfl }

theorem Accepted.name {aliases : List String} {f : Function} {t : AssociatedTest} (h : Accepted aliases f t) :
    t.name = f.name := by
  rw [AssociatedTest.name, h.function]
  rfl

/-- Without a star, the parameters are the plain ones. -/
theorem ofTrees_of_noStar (starred : Bool) (ts : List SyntaxTree) (hstarred : starred = false)
    (h : ts.any isStarParameter = false) :
    (Parameter.ofTrees starred ts).length = (ts.filter isPlainParameter).length ∧
      ∀ p ∈ Parameter.ofTrees starred ts, p.kind = .plain := by
  fun_induction Parameter.ofTrees starred ts with
  | case1 => simp
  | case2 starred cs ts ih =>
    obtain ⟨hlen, hkind⟩ := ih hstarred (by simpa [isStarParameter, SyntaxTree.is] using h)
    subst hstarred
    refine ⟨by simpa [isPlainParameter, SyntaxTree.is] using hlen, ?_⟩
    intro p hp
    rcases List.mem_cons.mp hp with rfl | hp
    · rfl
    · exact hkind p hp
  | case3 | case4 | case5 => simp [isStarParameter, SyntaxTree.is] at h
  | case6 starred t ts hparameter hbare hstar hdouble ih =>
    have hplain : isPlainParameter t = false := by
      cases t with
      | leaf _ => rfl
      | node k cs =>
        rw [isPlainParameter, SyntaxTree.is, beq_eq_false_iff_ne]
        rintro rfl
        exact hparameter cs rfl
    rw [List.any_cons, Bool.or_eq_false_iff] at h
    rw [List.filter_cons, if_neg (by simp [hplain])]
    exact ih hstarred h.2

/-- The parameters of a test: none, or one for the implementing type. -/
theorem parameters_of_takesType? {h : FunctionHead} {b : Bool} (hb : takesType? h = some b) :
    (Signature.ofHead h).parameters.length = b.toNat ∧ ∀ p ∈ (Signature.ofHead h).parameters, p.kind = .plain := by
  unfold takesType? at hb
  by_cases hbad : h.parameters.any isStarParameter || 1 < (h.parameters.filter isPlainParameter).length
  · rw [if_pos hbad] at hb
    cases hb
  · rw [if_neg hbad, Option.some.injEq] at hb
    rw [Bool.or_eq_true, not_or, decide_eq_true_eq, Bool.not_eq_true] at hbad
    obtain ⟨hlen, hkind⟩ := ofTrees_of_noStar false h.parameters rfl hbad.1
    refine ⟨?_, hkind⟩
    show (Parameter.ofTrees false h.parameters).length = _
    rw [hlen, ← hb]
    generalize (h.parameters.filter isPlainParameter).length = n at hbad
    obtain rfl | rfl : n = 0 ∨ n = 1 := by omega
    · rfl
    · rfl

theorem returns?_of_resultType {h : FunctionHead} {output : SyntaxTree} (hr : resultType h = .ok (some output)) :
    h.returns? = some output := by
  unfold resultType at hr
  cases he : h.returns? with
  | none =>
    rw [he] at hr
    cases hr
  | some e =>
    rw [he] at hr
    dsimp only at hr
    split at hr
    · split_ifs at hr
      · cases hr
      · obtain ⟨value, -, hvalue⟩ := Computation.except_bind_eq_ok hr
        by_cases hnone : (value == .text ("None".toList.map Char.toNat)) = true
        · rw [if_pos hnone] at hvalue
          cases hvalue
        · rw [if_neg hnone] at hvalue
          cases hvalue
          rfl
      · cases hr
        rfl
    · cases hr
      rfl

/-- The annotation of the value that a test returns is what stands after its arrow. -/
theorem returns?_of_testKind {aliases : List String} {f : Function} {output : SyntaxTree}
    (h : testKind aliases f = .ok (.returnsResult output)) : f.head.returns? = some output := by
  obtain ⟨result, hresult, h⟩ := Computation.except_bind_eq_ok h
  obtain ⟨panic, hpanic, h⟩ := Computation.except_bind_eq_ok h
  obtain rfl : result = some output := by
    cases panic <;> cases result <;> cases h
    rfl
  apply returns?_of_resultType
  cases hr : resultType f.head with
  | error e =>
    rw [hr] at hresult
    cases hresult
  | ok r =>
    rw [hr] at hresult
    cases hresult
    rfl

/-! ## All tests -/

/-- What is left of a class: its members without the tests, and the tests. -/
def Class.withoutTests (c : Class) (aliases : List String) (tests : List AssociatedTest) : Interface :=
  { prelude := c.prelude
    head := c.asBlock.1
    block := { c.asBlock.2 with body := c.asBlock.2.body.filter fun s => (test? aliases s).isNone }
    tests }

theorem Interface.ofClass_eq_ok {aliases : List String} {c : Class} {i : Interface}
    (h : Interface.ofClass aliases c = .ok i) :
    ∃ tests, List.Forall₂ (Accepted aliases) (c.asBlock.2.body.filterMap (test? aliases)) tests ∧
      firstDuplicate? [] tests = none ∧ i = c.withoutTests aliases tests := by
  unfold Interface.ofClass at h
  obtain ⟨tests, htests, h⟩ := Computation.except_bind_eq_ok h
  have haccepted := (Computation.mapM_eq_ok htests).imp fun _ _ => AssociatedTest.read_eq_ok
  cases hdup : firstDuplicate? [] tests with
  | some pair =>
    rw [hdup] at h
    cases h
  | none =>
    rw [hdup] at h
    cases h
    exact ⟨tests, haccepted, hdup, rfl⟩

/-- A class is expanded if its marker has no arguments and its tests are accepted. -/
theorem expandInterface_eq_ok {aliases : List String} {args : List SyntaxTree} {c c' : Class}
    (h : expandInterface aliases args c.statement = .ok c') :
    args = [] ∧ ∃ i, Interface.ofClass aliases c = .ok i ∧ c' = i.expanded := by
  obtain ⟨i, hread, hout⟩ := Computation.except_bind_eq_ok h
  cases hout
  cases args with
  | cons first rest => cases hread
  | nil => exact ⟨rfl, i, hread, rfl⟩

/-! ## Examples -/

/-- A decorator that is a name. -/
def plainDecorator (name : String) : Decorator :=
  { sign := { kind := .operator, text := "@" }, expression := .ofName name }

/-- A class under one decorator. -/
def decoratedClass (decorator name : String) (bases : List String) (body : List Statement) : Class :=
  { prelude := { decorators := [plainDecorator decorator] }
    head := { word := { kind := .name, text := "class", after := spaced }
              name := { kind := .name, text := name }
              rest := [.node .bases ([.ofOperator "("] ++ SyntaxTree.ofArguments (bases.map .ofName) ++
                [.ofOperator ")"]), .ofOperator ":"] }
    body := .block {} none body [] }

/-- A test without parameters that does nothing. -/
def emptyTest (name : String) : Function :=
  { prelude := { decorators := [plainDecorator "test"] }
    head := { word := { kind := .name, text := "def", after := spaced }
              name := { kind := .name, text := name }
              rest := [.node .parameters [.ofOperator "(", .ofOperator ")"], .ofOperator ":"] }
    body := .inline (.node .simple [.node .statement [.ofName "pass"]]) {} }

end Conformance
