import Mathlib.Tactic.SplitIfs
import Conformance.Proofs.Computation
import Conformance.Evaluation.Evaluate

/-!
# What calls leave alone

A call may print, make classes and fail, but when it is over, the names of the function that made it are as they
were: `KeepsScope (callAt depth f args named)`.  An expression binds no names, so its evaluation keeps them, too,
whatever way of calling it is evaluated with, as long as calls do (`keepsScope_evaluate`).
-/

namespace Conformance

/-- Whether a computation leaves the innermost scope as it found it, also if it fails. -/
def KeepsScope {α : Type} (x : Run α) : Prop := ∀ w, (x w).2.scope = w.scope

namespace KeepsScope

variable {α β : Type}

theorem pure (a : α) : KeepsScope (pure a : Run α) := fun _ => rfl

theorem throw (e : Raised) : KeepsScope (throw e : Run α) := fun _ => rfl

theorem raising (k : ErrorKind) (s : String) : KeepsScope (raising k s : Run α) := fun _ => rfl

theorem get : KeepsScope (get : Run World) := fun _ => rfl

theorem bind {x : Run α} {f : α → Run β} (hx : KeepsScope x) (hf : ∀ a, KeepsScope (f a)) :
    KeepsScope (x >>= f) := by
  intro w
  rw [Computation.bind_apply]
  have hw := hx w
  rcases h : x w with ⟨e | a, t⟩
  · rwa [h] at hw
  · rw [h] at hw
    exact (hf a t).trans hw

theorem ite {p : Prop} [Decidable p] {x y : Run α} (hx : KeepsScope x) (hy : KeepsScope y) :
    KeepsScope (if p then x else y) := by
  by_cases h : p
  · rwa [if_pos h]
  · rwa [if_neg h]

theorem forM {f : α → Run PUnit} (hf : ∀ a, KeepsScope (f a)) (as : List α) : KeepsScope (as.forM f) := by
  induction as with
  | nil => exact pure ()
  | cons a as ih =>
    show KeepsScope (f a >>= fun _ => as.forM f)
    exact bind (hf a) fun _ => ih

theorem filterMapM {f : α → Run (Option β)} (hf : ∀ a, KeepsScope (f a)) (as : List α) :
    KeepsScope (as.filterMapM f) := by
  have hloop : ∀ bs, KeepsScope (List.filterMapM.loop f as bs) := by
    induction as with
    | nil => exact fun bs => pure bs.reverse
    | cons a as ih =>
      intro bs
      refine bind (hf a) fun b => ?_
      cases b with
      | none => exact ih bs
      | some b => exact ih (b :: bs)
  exact hloop []

theorem discard {x : Run α} (hx : KeepsScope x) : KeepsScope (discard x) :=
  bind hx fun _ => pure ()

/-- A function body runs in a scope of its own. -/
theorem inScope (s : Scope) (x : Run α) : KeepsScope (inScope s x) := fun _ => rfl

theorem fromClasses {ε : Type} (f : Hierarchy → Except ε α) (message : ε → String) :
    KeepsScope (fromClasses f message) := by
  refine bind get fun w => ?_
  cases f w.classes with
  | ok a => exact pure a
  | error e => exact raising _ _

theorem bindArguments (qualname : String) (f : Formals) (args : List Value) (named : Namespace) :
    KeepsScope (bindArguments qualname f args named) := by
  unfold Conformance.bindArguments
  cases f.bind args named with
  | ok bound => exact pure bound
  | error e => exact raising _ _

theorem getAttribute (v : Value) (name : String) : KeepsScope (getAttribute v name) := by
  refine bind get fun w => ?_
  cases attribute? w.classes v name with
  | some a => exact pure a
  | none => exact raising _ _

theorem lookupName (name : String) : KeepsScope (lookupName name) := by
  refine bind get fun w => ite (raising _ _) ?_
  cases w.lookup? name <|> Library.builtIn? name with
  | some v => exact pure v
  | none => exact raising _ _

theorem negate (v : Value) : KeepsScope (negate v) := by
  cases v with
  | int i => exact pure _
  | bool b => exact pure _
  | _ => exact raising _ _

theorem printLine (s : String) : KeepsScope (printLine s) := fun _ => rfl

theorem settled (r : Except Raised α) : KeepsScope (settled r) := by
  cases r with
  | ok a => exact pure a
  | error e => exact throw e

end KeepsScope

/-- Whether every call made in this way keeps the scope it is made in. -/
def Call.KeepScope (call : Call) : Prop := ∀ f args named, KeepsScope (call f args named)

/-! ## Expressions -/

mutual

/-- The evaluation of an expression keeps the names around it. -/
theorem keepsScope_evaluate {call : Call} (hcall : call.KeepScope) : ∀ e : Expr, KeepsScope (evaluate call e)
  | .constant _ => .pure _
  | .name n => .lookupName n
  | .member e n => .bind (keepsScope_evaluate hcall e) fun v => .getAttribute v n
  | .index e k => .bind (keepsScope_evaluate hcall e) fun _ =>
      .bind (keepsScope_evaluate hcall k) fun _ => .fromClasses _ _
  | .call f args named => .bind (keepsScope_evaluate hcall f) fun _ =>
      .bind (keepsScope_evaluateAll hcall args) fun _ =>
      .bind (keepsScope_evaluateNamed hcall named) fun _ => hcall _ _ _
  | .tuple items => .bind (keepsScope_evaluateAll hcall items) fun _ => .pure _
  | .list items => .bind (keepsScope_evaluateAll hcall items) fun _ => .pure _
  | .dict entries => .bind (keepsScope_evaluateEntries hcall entries) fun _ => .pure _
  | .negative e => .bind (keepsScope_evaluate hcall e) fun v => .negate v
  | .not e => .bind (keepsScope_evaluate hcall e) fun _ => .pure _
  | .compare _ l r => .bind (keepsScope_evaluate hcall l) fun _ => .bind (keepsScope_evaluate hcall r) fun _ => .pure _
  | .unsupported => .raising _ _

theorem keepsScope_evaluateAll {call : Call} (hcall : call.KeepScope) :
    ∀ es : List Expr, KeepsScope (evaluateAll call es)
  | [] => .pure []
  | e :: es => .bind (keepsScope_evaluate hcall e) fun _ => .bind (keepsScope_evaluateAll hcall es) fun _ => .pure _

theorem keepsScope_evaluateNamed {call : Call} (hcall : call.KeepScope) :
    ∀ es : List (String × Expr), KeepsScope (evaluateNamed call es)
  | [] => .pure []
  | (_, e) :: es => .bind (keepsScope_evaluate hcall e) fun _ =>
      .bind (keepsScope_evaluateNamed hcall es) fun _ => .pure _

theorem keepsScope_evaluateEntries {call : Call} (hcall : call.KeepScope) :
    ∀ es : List (Expr × Expr), KeepsScope (evaluateEntries call es)
  | [] => .pure []
  | (k, e) :: es => .bind (keepsScope_evaluate hcall k) fun _ => .bind (keepsScope_evaluate hcall e) fun _ =>
      .bind (keepsScope_evaluateEntries hcall es) fun _ => .pure _

end

theorem keepsScope_evaluate? {call : Call} (hcall : call.KeepScope) (e : Option Expr) :
    KeepsScope (evaluate? call e) := by
  cases e with
  | none => exact .pure none
  | some e => exact .bind (keepsScope_evaluate hcall e) fun _ => .pure _

end Conformance
