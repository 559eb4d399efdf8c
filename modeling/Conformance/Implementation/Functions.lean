import Conformance.Implementation.Basic

/-!
# Test functions

Each instantiation of an implementation becomes a function without parameters that calls the hidden method of
the interface for the concrete type.  The functions are numbered on from a counter.
-/

namespace Conformance

open Source

namespace Implementation

/-- The names of the functions, if the next number is `next`. -/
def functionNames (discovery : String) (next : Nat) (i : Implementation) : List String :=
  i.instantiations.zipIdx.map fun (inst, k) =>
    Naming.synthesized (if i.inline then "" else discovery) inst.interface (next + k)

/-- The call of the hidden method for an instantiation. -/
def invocation (inst : Instantiation) : SyntaxTree :=
  ((inst.interface.guarded.dot Naming.hiddenMethod).dot "__func__").apply [inst.implementer]

/-- The function for an instantiation. -/
def functionFor (name : String) (inst : Instantiation) : Statement :=
  .function [] name [] [.ofExpression (invocation inst)]

/-- The calls of the functions, with an empty line before the first. -/
def calls (names : List String) : List Statement :=
  match names.map fun n => Statement.ofExpression ((SyntaxTree.ofName n).apply []) with
  | [] => []
  | first :: rest => first.withLead [Line.empty] :: rest

/-- The class, its functions and, if they are run where they stand, their calls. -/
def expanded (discovery : String) (next : Nat) (i : Implementation) : List Statement :=
  let names := i.functionNames discovery next
  [i.definition.statement] ++ List.zipWith functionFor names i.instantiations ++
    (if i.inline then calls names else [])

end Implementation

end Conformance
