import Conformance.Proofs.Expansion.Locality
import Conformance.Proofs.Expansion.Numbering
import Conformance.Proofs.Expansion.TwoRuns

/-!
# The counter only numbers

Nothing but the numbers in generated names depends on where the counter starts.  Two expansions of a module from the
values `a` and `b` fail alike, or their results agree but for these numbers: the name that is `a + k` in one result is
`b + k` in the other, where it is defined and where it is called (`Renumbered`).  Both leave the counter behind by the
same amount further on.
-/

namespace Conformance

open Source

/-! ## Results that differ in numbers -/

/-- The functions with some names and, if they are run where they stand, their calls. -/
def generatedWith (inline : Bool) (names : List String) (insts : List Instantiation) : List Statement :=
  List.zipWith Implementation.functionFor names insts ++ if inline then Implementation.calls names else []

theorem Implementation.expanded_eq (discovery : String) (next : Nat) (i : Implementation) :
    i.expanded discovery next =
      i.definition.statement :: generatedWith i.inline (numbered next (i.labels discovery)) i.instantiations := by
  rw [← i.functionNames_eq, expanded, generatedWith, List.append_assoc]
  rfl

mutual

/-- Statements that agree but for the numbers of generated functions.  Those before them are numbered up to `a + n` on
one side and up to `b + n` on the other, and `n'` counts these, too. -/
inductive Renumbered (a b : Nat) : Nat → List Statement → List Statement → Nat → Prop
  | nil {n : Nat} : Renumbered a b n [] [] n
  | same {n n' : Nat} {st : Statement} {ss ts : List Statement} :
      Renumbered a b n ss ts n' → Renumbered a b n (st :: ss) (st :: ts) n'
  | clause {n n₁ n' : Nat} {lead : List Line} {head : SyntaxTree} {body body' : Suite} {ss ts : List Statement} :
      RenumberedSuite a b n body body' n₁ → Renumbered a b n₁ ss ts n' →
      Renumbered a b n (.clause lead head body :: ss) (.clause lead head body' :: ts) n'
  | function {n n₁ n' : Nat} {prelude : Prelude} {head : FunctionHead} {body body' : Suite} {ss ts : List Statement} :
      RenumberedSuite a b n body body' n₁ → Renumbered a b n₁ ss ts n' →
      Renumbered a b n (.ofFunction prelude head body :: ss) (.ofFunction prelude head body' :: ts) n'
  | ofClass {n n₁ n' : Nat} {prelude : Prelude} {head : ClassHead} {body body' : Suite} {ss ts : List Statement} :
      RenumberedSuite a b n body body' n₁ → Renumbered a b n₁ ss ts n' →
      Renumbered a b n (.ofClass prelude head body :: ss) (.ofClass prelude head body' :: ts) n'
  | generated {n n' : Nat} {labels : List Label} {insts : List Instantiation} {ss ts : List Statement} (inline : Bool) :
      labels.length = insts.length → Renumbered a b (n + labels.length) ss ts n' →
      Renumbered a b n (generatedWith inline (numbered (a + n) labels) insts ++ ss)
        (generatedWith inline (numbered (b + n) labels) insts ++ ts) n'

/-- Suites that agree but for the numbers of generated functions. -/
inductive RenumberedSuite (a b : Nat) : Nat → Suite → Suite → Nat → Prop
  | same {n : Nat} {body : Suite} : RenumberedSuite a b n body body n
  | block {n n' : Nat} {opening : LineEnd} {indent : Option String} {body body' : List Statement}
      {footer : List Line} :
      Renumbered a b n body body' n' →
      RenumberedSuite a b n (.block opening indent body footer) (.block opening indent body' footer) n'

end

variable {a b : Nat}

theorem Renumbered.append {n n₁ n' : Nat} {ss ts ss' ts' : List Statement} (h : Renumbered a b n ss ts n₁)
    (h' : Renumbered a b n₁ ss' ts' n') : Renumbered a b n (ss ++ ss') (ts ++ ts') n' := by
  match h with
  | .nil => exact h'
  | .same h => exact .same (h.append h')
  | .clause hbody h => exact .clause hbody (h.append h')
  | .function hbody h => exact .function hbody (h.append h')
  | .ofClass hbody h => exact .ofClass hbody (h.append h')
  | .generated inline hlen h =>
    rw [List.append_assoc, List.append_assoc]
    exact .generated inline hlen (h.append h')

/-! ## Runs in step -/

/-- Both expansions have generated `n` functions since their counters were at `a` and at `b`, and their progress is the
same otherwise. -/
structure InStep (a b n : Nat) (p q : Progress) : Prop where
  counter : p.counter = a + n
  counter' : q.counter = b + n
  interfaces : p.interfaces = q.interfaces
  implementations : p.implementations = q.implementations
  log : p.log = q.log

/-- How two runs in step end: with the same failure, or with results that are related; in step again either way. -/
def EndInStep {α : Type} (a b : Nat) (R : α → α → Nat → Prop) :
    Except Failure α × Progress → Except Failure α × Progress → Prop :=
  EndAlike (fun x y p q => ∃ n, InStep a b n p q ∧ R x y n) fun e f p q => e = f ∧ ∃ n, InStep a b n p q

theorem InStep.eq_with {n : Nat} {p q : Progress} (h : InStep a b n p q) :
    p = { p with counter := a + n } ∧ q = { p with counter := b + n } := by
  obtain ⟨hp, hq, hi, hc, hl⟩ := h
  exact ⟨by rw [← hp], by rw [hi, hc, hl, ← hq]⟩

theorem EndInStep.cases {α : Type} {R : α → α → Nat → Prop} {x y : Except Failure α × Progress}
    (h : EndInStep a b R x y) :
    ∃ (k : Nat) (q : Progress),
      (∃ e, x = (.error e, { q with counter := a + k }) ∧ y = (.error e, { q with counter := b + k })) ∨
      (∃ u v, x = (.ok u, { q with counter := a + k }) ∧ y = (.ok v, { q with counter := b + k }) ∧ R u v k) := by
  rcases x with ⟨e | u, p⟩ <;> rcases y with ⟨e' | v, q⟩
  · obtain ⟨rfl, k, hstep⟩ := h
    exact ⟨k, p, .inl ⟨e, congrArg _ hstep.eq_with.1, congrArg _ hstep.eq_with.2⟩⟩
  · exact h.elim
  · exact h.elim
  · obtain ⟨k, hstep, hr⟩ := h
    exact ⟨k, p, .inr ⟨u, v, congrArg _ hstep.eq_with.1, congrArg _ hstep.eq_with.2, hr⟩⟩

theorem EndInStep.checking {α β : Type} {s : Surroundings} {definition : Option Extent} {r : Except Failure α}
    {f : α → Expand β} {R : β → β → Nat → Prop} {n : Nat} {p q : Progress} (h : InStep a b n p q)
    (hnext : ∀ x, r = .ok x → EndInStep a b R (f x p) (f x q)) :
    EndInStep a b R ((s.checking definition r >>= f) p) ((s.checking definition r >>= f) q) := by
  cases r with
  | ok x => exact hnext x rfl
  | error e => exact ⟨rfl, n, h⟩

/-! ## Expansion in step -/

@[simp] theorem Implementation.length_calls (names : List String) : (calls names).length = names.length := by
  cases names with
  | nil => rfl
  | cons name names => simp [calls]

theorem Implementation.length_expanded (discovery : String) (next : Nat) (i : Implementation) :
    (i.expanded discovery next).length =
      1 + i.instantiations.length + if i.inline then i.instantiations.length else 0 := by
  rw [expanded_eq, generatedWith]
  cases i.inline <;> simp [length_numbered] <;> omega

/-- An implementation is followed by the same functions on both sides, numbered from where the counter is. -/
theorem Implementation.expanded_renumbered (discovery : String) (n : Nat) (i : Implementation) :
    Renumbered a b n (i.expanded discovery (a + n)) (i.expanded discovery (b + n)) (n + i.instantiations.length) := by
  have hfunctions := Renumbered.generated (a := a) (b := b) (n := n) i.inline (i.length_labels discovery) .nil
  rw [List.append_nil, List.append_nil, i.length_labels] at hfunctions
  rw [expanded_eq, expanded_eq]
  exact .same hfunctions

/-- A marked class is replaced by the same statements on both sides, but for the numbers of its functions. -/
theorem expandClass_inStep (s : Surroundings) (m : Marker) (d : Decorator) (c : Class) {n : Nat} {p q : Progress}
    (h : InStep a b n p q) :
    EndInStep a b (Renumbered a b n) (expandClass s m d c p) (expandClass s m d c q) := by
  cases m with
  | interface =>
    refine EndInStep.checking h fun c' _ => ⟨n, ⟨h.counter, h.counter', ?_, h.implementations, ?_⟩, .same .nil⟩
    · exact congrArg (· ++ _) h.interfaces
    · exact congrArg (· ++ _) h.log
  | _ =>
    refine EndInStep.checking h fun i _ => ⟨n + i.instantiations.length, ⟨?_, ?_, h.interfaces, ?_, ?_⟩, ?_⟩
    · exact (congrArg (· + _) h.counter).trans (Nat.add_assoc ..)
    · exact (congrArg (· + _) h.counter').trans (Nat.add_assoc ..)
    · exact congrArg (· ++ _) h.implementations
    · -- the log says how many statements there are
      simp only [h.log, Implementation.length_expanded]
    · rw [h.counter, h.counter']
      exact i.expanded_renumbered _ n

mutual

theorem expandStatement_inStep (s : Surroundings) (inside : Bool) (st : Statement) {n : Nat} {p q : Progress}
    (h : InStep a b n p q) :
    EndInStep a b (Renumbered a b n) (expandStatement s inside st p) (expandStatement s inside st q) := by
  match st with
  | .simple lead body stop => exact ⟨n, h, .same .nil⟩
  | .clause lead head body =>
    refine (expandSuite_inStep s inside body h).map ?_
    rintro body₁ body₂ p' q' ⟨n', h', hbody⟩
    exact ⟨n', h', .clause hbody .nil⟩
  | .ofFunction prelude head body =>
    refine EndInStep.checking h fun _ _ => (expandSuite_inStep s inside body h).map ?_
    rintro body₁ body₂ p' q' ⟨n', h', hbody⟩
    exact ⟨n', h', .function hbody .nil⟩
  | .ofClass prelude head body =>
    refine EndInStep.checking h fun found _ => ?_
    cases found with
    | none =>
      refine (expandSuite_inStep s inside body h).map ?_
      rintro body₁ body₂ p' q' ⟨n', h', hbody⟩
      exact ⟨n', h', .ofClass hbody .nil⟩
    | some e =>
      refine (expandSuite_inStep s true body h).bind fun body₁ body₂ p' q' hbody hbody' _ => ?_
      -- nothing is expanded inside a marked class, so the counters are where they were
      obtain ⟨-, rfl, -⟩ := expandSuite_inside hbody
      obtain ⟨-, rfl, -⟩ := expandSuite_inside hbody'
      exact expandClass_inStep s e.1 e.2 _ h

theorem expandSuite_inStep (s : Surroundings) (inside : Bool) (body : Suite) {n : Nat} {p q : Progress}
    (h : InStep a b n p q) :
    EndInStep a b (RenumberedSuite a b n) (expandSuite s inside body p) (expandSuite s inside body q) := by
  match body with
  | .inline body stop => exact ⟨n, h, .same⟩
  | .block opening indent body footer =>
    refine (expandStatements_inStep s inside body h).map ?_
    rintro out out' p' q' ⟨n', h', hout⟩
    exact ⟨n', h', .block hout⟩

theorem expandStatements_inStep (s : Surroundings) (inside : Bool) (ss : List Statement) {n : Nat} {p q : Progress}
    (h : InStep a b n p q) :
    EndInStep a b (Renumbered a b n) (expandStatements s inside ss p) (expandStatements s inside ss q) := by
  match ss with
  | [] => exact ⟨n, h, .nil⟩
  | first :: rest =>
    refine (expandStatement_inStep s inside first h).bind ?_
    rintro out out' p' q' - - ⟨n₁, h₁, hout⟩
    refine (expandStatements_inStep s inside rest h₁).map ?_
    rintro more more' p₂ q₂ ⟨n₂, h₂, hmore⟩
    exact ⟨n₂, h₂, hout.append hmore⟩

end

/-- From two values of its counter, an expansion of a module fails with one and the same failure, or it returns modules
that agree but for the numbers of generated functions, where `a + k` and `b + k` stand for each other.  Either way the
counter is moved on by as many numbers, and what else is left behind is the same. -/
theorem expandModule_counter_irrelevant (settings : Settings) (filename : String) (m : Module) (p : Progress)
    (a b : Nat) :
    ∃ (k : Nat) (q : Progress),
      (∃ e, (expandModule settings filename m).run { p with counter := a } = (.error e, { q with counter := a + k }) ∧
        (expandModule settings filename m).run { p with counter := b } = (.error e, { q with counter := b + k })) ∨
      (∃ body body',
        (expandModule settings filename m).run { p with counter := a } =
          (.ok { m with body := body }, { q with counter := a + k }) ∧
        (expandModule settings filename m).run { p with counter := b } =
          (.ok { m with body := body' }, { q with counter := b + k }) ∧
        Renumbered a b 0 body body' k) := by
  have hstart : InStep a b 0 { p with counter := a } { p with counter := b } := ⟨rfl, rfl, rfl, rfl, rfl⟩
  obtain ⟨k, q, h⟩ := (expandStatements_inStep (m.surroundings settings filename) false m.body hstart).cases
  refine ⟨k, q, ?_⟩
  rcases h with ⟨e, ha, hb⟩ | ⟨body, body', ha, hb, hbody⟩
  · exact .inl ⟨e, Computation.bind_of_error ha, Computation.bind_of_error hb⟩
  · exact .inr ⟨body, body', Computation.bind_of_ok ha, Computation.bind_of_ok hb, hbody⟩

end Conformance
