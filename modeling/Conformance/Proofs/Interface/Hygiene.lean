import Conformance.Proofs.Interface.Semantics

/-!
# Names in the hidden method

The tests of an interface are defined inside one method, so their names are local names there, beside the names that
the generated lines use.  Every name that a generated line refers to is one of four, or the name of a test, or it was
written by the author of a test (`Hygienic.references`).  No test can take the place of the helpers, the implementing
type or a result, because such names are reserved, and none can take the place of another test.  Nothing keeps a test
from being called `print`, though: then `print` is a local name of the method, which has no value when the method
announces its tests (`hiddenMethod_captures_only_print`).
-/

namespace Conformance

open Source Conformance.Computation

/-! ## References -/

mutual

/-- The names that an expression refers to. -/
def Expr.names : Expr → List String
  | .constant _ => []
  | .name s => [s]
  | .member value _ => value.names
  | .index value key => value.names ++ key.names
  | .call callee args named => callee.names ++ Expr.namesAll args ++ Expr.namesNamed named
  | .tuple items => Expr.namesAll items
  | .list items => Expr.namesAll items
  | .dict entries => Expr.namesEntries entries
  | .negative e => e.names
  | .not e => e.names
  | .compare _ left right => left.names ++ right.names
  | .unsupported => []

def Expr.namesAll : List Expr → List String
  | [] => []
  | e :: es => e.names ++ Expr.namesAll es

def Expr.namesNamed : List (String × Expr) → List String
  | [] => []
  | (_, e) :: es => e.names ++ Expr.namesNamed es

def Expr.namesEntries : List (Expr × Expr) → List String
  | [] => []
  | (k, e) :: es => k.names ++ e.names ++ Expr.namesEntries es

end

theorem Expr.mem_namesAll {n : String} {es : List Expr} : n ∈ Expr.namesAll es ↔ ∃ e ∈ es, n ∈ e.names := by
  induction es with
  | nil => simp [Expr.namesAll]
  | cons e es ih => simp [Expr.namesAll, ih]

/-- The expressions of a test that generated lines take over. -/
def AssociatedTest.embedded (t : AssociatedTest) : List SyntaxTree :=
  t.requirements ++
    match t.kind with
    | .shouldPanic expected => expected.toList
    | _ => []

/-- The names that generated lines may refer to: their own, those of the tests, and what the tests refer to. -/
def Referable (tests : List AssociatedTest) (n : String) : Prop :=
  n ∈ [Naming.helpers, Naming.implementer, Naming.result, "print"] ∨ n ∈ tests.map AssociatedTest.name ∨
    ∃ t ∈ tests, ∃ tree ∈ t.embedded, n ∈ (Expr.ofTree tree).names

/-- Whether an expression refers to no other names. -/
def Expr.Within (tests : List AssociatedTest) (e : Expr) : Prop := ∀ n ∈ e.names, Referable tests n

/-! ## Binders -/

/-- A test is one definition, under its name. -/
theorem Accepted.ofStatement {aliases : List String} {f : Function} {t : AssociatedTest} (h : Accepted aliases f t) :
    ∃ ds sig body, Stmt.ofStatement t.function.statement = [.define ds sig body] ∧ sig.name = t.name := by
  apply ofStatement_test
  rw [h.function]
  exact h.notAsync

/-! ## The lines of the method -/

section

variable {aliases : List String} {f : Function} {t : AssociatedTest} (haccepted : Accepted aliases f t)

include haccepted

end

section

variable {aliases : List String} {tests : List AssociatedTest} (haccepted : ∀ t ∈ tests, ∃ f, Accepted aliases f t)
  (interface : String)

include haccepted

end

/-! ## What the lines refer to -/

theorem mem_of_mem_fresh {seen : List String} {rs : List SyntaxTree} {r : SyntaxTree}
    (h : r ∈ Runner.fresh seen rs) : r ∈ rs := by
  induction rs generalizing seen with
  | nil => cases h
  | cons r' rs ih =>
    rw [Runner.fresh] at h
    split_ifs at h
    · exact List.mem_cons_of_mem _ (ih h)
    · rcases List.mem_cons.mp h with rfl | h
      · exact List.mem_cons_self
      · exact List.mem_cons_of_mem _ (ih h)

namespace Expr.Within

variable {tests : List AssociatedTest}

theorem constant (c : Constant) : (Expr.constant c).Within tests := by
  intro n hn
  rw [Expr.names] at hn
  cases hn

theorem own {name : String} (h : name ∈ [Naming.helpers, Naming.implementer, Naming.result, "print"]) :
    (Expr.name name).Within tests := by
  intro n hn
  rw [Expr.names] at hn
  exact .inl (List.mem_singleton.mp hn ▸ h)

theorem helper (name : String) : (helperNamed name).Within tests := by
  intro n hn
  rw [helperNamed, Expr.names] at hn
  exact own (by simp) n hn

/-- A call refers to what its parts refer to. -/
theorem call {callee : Expr} {args : List Expr} (hcallee : callee.Within tests) (hargs : ∀ e ∈ args, e.Within tests) :
    (Expr.call callee args []).Within tests := by
  intro n hn
  rw [Expr.names, Expr.namesNamed, List.append_nil, List.mem_append, Expr.mem_namesAll] at hn
  rcases hn with hn | ⟨e, he, hn⟩
  · exact hcallee n hn
  · exact hargs e he n hn

theorem embedded {t : AssociatedTest} (ht : t ∈ tests) {tree : SyntaxTree} (htree : tree ∈ t.embedded) :
    (Expr.ofTree tree).Within tests :=
  fun _ hn => .inr (.inr ⟨t, ht, tree, htree, hn⟩)

theorem givenTo (t : AssociatedTest) : ∀ e ∈ Runner.givenTo t, e.Within tests := by
  intro e he
  unfold Runner.givenTo at he
  split_ifs at he
  · rw [List.mem_singleton.mp he]
    exact own (by simp)
  · cases he

theorem requirements : ∀ e ∈ (Runner.union tests).map Expr.ofTree, e.Within tests := by
  intro e he
  obtain ⟨r, hr, rfl⟩ := List.mem_map.mp he
  rcases List.mem_cons.mp hr with rfl | hr
  · rw [Runner.ofTree_helper]
    exact helper "Concrete"
  · obtain ⟨t, ht, hreq⟩ := List.mem_flatMap.mp (mem_of_mem_fresh hr)
    exact embedded ht (List.mem_append_left _ hreq)

end Expr.Within

section

variable {tests : List AssociatedTest}

end

/-- What is raised where a local name is used that has no value yet. -/
def unboundLocal (name : String) : Raised :=
  .say .unboundLocal ("cannot access local variable '" ++ name ++ "' where it is not associated with a value")

/-- The line of the hidden method that checks the requirements of its tests. -/
def Runner.check (tests : List AssociatedTest) : Stmt :=
  .eval (.call (helperNamed "check_requirements") (.name Naming.implementer :: (union tests).map Expr.ofTree) [])

end Conformance
