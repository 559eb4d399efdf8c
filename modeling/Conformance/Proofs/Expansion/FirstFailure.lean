import Conformance.Proofs.Expansion.Basic

/-!
# The first failure of an expansion

An expansion walks through the definitions of a module.  It enters every class and every function in the order of
the text, and leaves every marked class after its body.  These are the visits of the walk, and some of them are
bad: entering a definition with two entry markers, a marked function, or a marked class inside another one, and
leaving a class that its marker cannot expand.  `Visit.failure?` is what such a visit is blamed with.

    (expandModule settings filename m).run p succeeds  ↔  no visit of m is bad
    (expandModule settings filename m).run p = (.error f, _)  if  f is the failure of the first bad visit

Both are `expandModule_fails_at_first_bad_visit`.  The walk itself carries along only whether it is inside a marked
class; `visits` keeps all the classes around, and the induction relates the two.
-/

namespace Conformance

open Source

/-! ## Visits -/

/-- Whether the class carries an entry marker. -/
def Class.isMarked (aliases : List String) (c : Class) : Bool :=
  c.prelude.decorators.any (isEntry aliases)

/-- Whether the function carries an entry marker. -/
def Function.isMarked (aliases : List String) (f : Function) : Bool :=
  f.prelude.decorators.any (isEntry aliases)

/-- A visit of the walk through a module.  The classes `around` are those that a class stands in, at any distance,
the innermost first. -/
inductive Visit where
  | enterClass (around : List Class) (c : Class)
  | enterFunction (f : Function)
  | leaveClass (c : Class)

mutual

/-- The visits of a statement that stands in the classes `around`. -/
def Source.Statement.visits (aliases : List String) (around : List Class) : Statement → List Visit
  | .simple .. => []
  | .clause _ _ body => body.visits aliases around
  | .ofFunction prelude head body => .enterFunction { prelude, head, body } :: body.visits aliases around
  | .ofClass prelude head body =>
    let c : Class := { prelude, head, body }
    .enterClass around c ::
      (body.visits aliases (c :: around) ++ if c.isMarked aliases then [.leaveClass c] else [])

/-- The visits of a suite. -/
def Source.Suite.visits (aliases : List String) (around : List Class) : Suite → List Visit
  | .inline .. => []
  | .block _ _ body _ => visitsOf aliases around body

/-- The visits of statements, one after the other. -/
def visitsOf (aliases : List String) (around : List Class) : List Statement → List Visit
  | [] => []
  | s :: ss => s.visits aliases around ++ visitsOf aliases around ss

end

/-- The visits of a module. -/
def Source.Module.visits (aliases : List String) (m : Module) : List Visit :=
  visitsOf aliases [] m.body

/-! ## Bad visits -/

/-- The failure a result is, if it is one. -/
def failureOf? {α : Type} : Except Failure α → Option Failure
  | .ok _ => none
  | .error e => some e

/-- A failure inside a definition, with its place in the text. -/
def Surroundings.located (s : Surroundings) (definition : Option Extent) (e : Failure) : Failure :=
  e.locate (fun x => some (s.span x)) (definition.map s.span)

/-- The failure for breaking a rule at a place inside a definition. -/
def Surroundings.blame (s : Surroundings) (definition : Option Extent) (v : Violation) (node : Option Extent) :
    Failure :=
  s.located definition (.fault (v.fault node []))

/-- Whether the class can be expanded under its marker `d`, once that is taken off. -/
def Class.verdict (s : Surroundings) (m : Marker) (d : Decorator) (c : Class) : Except Failure Unit :=
  match m with
  | .interface =>
    discard (expandInterface s.settings.aliases d.expression.arguments (c.unmarked s.settings.aliases).statement)
  | _ =>
    discard (Implementation.read s.settings.aliases s.typeVariables d.expression.arguments
      (c.unmarked s.settings.aliases).statement)

namespace Visit

/-- The visits that an expansion does not survive. -/
def Bad (s : Surroundings) : Visit → Prop
  | enterClass around c =>
    2 ≤ (entryDecorators s.settings.aliases c.prelude.decorators).length ∨
      (c.isMarked s.settings.aliases = true ∧ ∃ a ∈ around, a.isMarked s.settings.aliases = true)
  | enterFunction f => f.isMarked s.settings.aliases = true
  | leaveClass c =>
    ∃ d rest e, entryDecorators s.settings.aliases c.prelude.decorators = d :: rest ∧
      c.verdict s (entryMarker s.settings.aliases d) d = .error e

/-- What a marked function is blamed with: the marker of an interface looks at its arguments first. -/
def functionFailure (s : Surroundings) (f : Function) (d : Decorator) : Failure :=
  match entryMarker s.settings.aliases d, d.expression.arguments with
  | .interface, first :: _ => s.blame f.extent? .interfaceArguments first.argumentExtent?
  | .interface, [] => s.blame f.extent? .notInterface f.extent?
  | _, _ => s.blame f.extent? .notImplementation f.extent?

/-- What a visit is blamed with.  Two markers on one definition are blamed on the second one, before anything else
is looked at. -/
def failure? (s : Surroundings) : Visit → Option Failure
  | enterClass around c =>
    match entryDecorators s.settings.aliases c.prelude.decorators with
    | [] => none
    | [d] =>
      if around.any (Class.isMarked s.settings.aliases) then
        some (s.blame c.extent? (.nestedMarker (entryMarker s.settings.aliases d).word) d.extent?)
      else none
    | _ :: second :: _ => some (s.blame c.extent? .repeatedMarker second.extent?)
  | enterFunction f =>
    match entryDecorators s.settings.aliases f.prelude.decorators with
    | [] => none
    | [d] => some (functionFailure s f d)
    | _ :: second :: _ => some (s.blame f.extent? .repeatedMarker second.extent?)
  | leaveClass c =>
    match entryDecorators s.settings.aliases c.prelude.decorators with
    | [] => none
    | d :: _ => (failureOf? (c.verdict s (entryMarker s.settings.aliases d) d)).map (s.located c.extent?)

end Visit

theorem Class.isMarked_iff (aliases : List String) (c : Class) :
    c.isMarked aliases = true ↔ entryDecorators aliases c.prelude.decorators ≠ [] := by
  simp [Class.isMarked, entryDecorators, List.filter_eq_nil_iff]

theorem Function.isMarked_iff (aliases : List String) (f : Function) :
    f.isMarked aliases = true ↔ entryDecorators aliases f.prelude.decorators ≠ [] := by
  simp [Function.isMarked, entryDecorators, List.filter_eq_nil_iff]

/-- The bad visits are those that something is blamed with. -/
theorem Visit.bad_iff (s : Surroundings) (v : Visit) : v.Bad s ↔ (v.failure? s).isSome = true := by
  cases v with
  | enterClass around c =>
    rw [Bad, failure?, Class.isMarked_iff]
    cases entryDecorators s.settings.aliases c.prelude.decorators with
    | nil => simp
    | cons d rest =>
      cases rest with
      | nil =>
        by_cases h : around.any (Class.isMarked s.settings.aliases) = true
        · simp only [h, if_true]
          simpa using h
        · simp only [h]
          simpa using h
      | cons second rest => simp
  | enterFunction f =>
    rw [Bad, failure?, Function.isMarked_iff]
    cases entryDecorators s.settings.aliases f.prelude.decorators with
    | nil => simp
    | cons d rest => cases rest <;> simp
  | leaveClass c =>
    rw [Bad, failure?]
    cases entryDecorators s.settings.aliases c.prelude.decorators with
    | nil => simp
    | cons d rest => cases h : c.verdict s (entryMarker s.settings.aliases d) d <;> simp [failureOf?, h]

/-! ## How computations end -/

/-- The computation fails with `o` from whatever progress it starts; with `none`, it succeeds. -/
def Ends {α : Type} (x : Expand α) (o : Option Failure) : Prop :=
  ∀ p, failureOf? (x.run p).1 = o

theorem Ends.pure {α : Type} (a : α) : Ends (pure a : Expand α) none :=
  fun _ => rfl

theorem Ends.throw {α : Type} (e : Failure) : Ends (throw e : Expand α) (some e) :=
  fun _ => rfl

/-- One computation after the other: a failure of the first one hides that of the second one. -/
theorem Ends.bind {α β : Type} {x : Expand α} {f : α → Expand β} {o o' : Option Failure} (hx : Ends x o)
    (hf : ∀ a, Ends (f a) o') : Ends (x >>= f) (o.or o') := by
  intro p
  have h := hx p
  simp only [ExceptT.run] at h ⊢
  rw [Computation.bind_apply]
  rcases hp : x p with ⟨e | a, q⟩
  · rw [hp] at h
    simp only [failureOf?] at h ⊢
    rw [← h, Option.some_or]
  · rw [hp] at h
    simp only [failureOf?] at h ⊢
    rw [← h, Option.none_or]
    exact hf a q

theorem Ends.checking {α : Type} (s : Surroundings) (definition : Option Extent) (r : Except Failure α) :
    Ends (s.checking definition r) ((failureOf? r).map (s.located definition)) := by
  cases r with
  | ok a => exact Ends.pure a
  | error e => exact Ends.throw _

theorem Ends.checking_ok {α β : Type} {s : Surroundings} {definition : Option Extent} {a : α}
    {f : α → Expand β} {o : Option Failure} (h : Ends (f a) o) : Ends (s.checking definition (.ok a) >>= f) o :=
  h

theorem Ends.bind_total {α β : Type} {x : Expand α} {f : α → Expand β} {o : Option Failure} (hx : Ends x o)
    (hf : ∀ a, Ends (f a) none) : Ends (x >>= f) o := by
  have h := Ends.bind hx hf
  rwa [Option.or_none] at h

theorem failureOf?_discard {α : Type} (r : Except Failure α) : failureOf? (discard r) = failureOf? r := by
  cases r <;> rfl

/-- A class fails to expand exactly as its verdict says. -/
theorem Ends.expandClass (s : Surroundings) (m : Marker) (d : Decorator) (c : Class) :
    Ends (expandClass s m d c) ((failureOf? (c.verdict s m d)).map (s.located c.extent?)) := by
  cases m with
  | interface =>
    simp only [Class.verdict, failureOf?_discard]
    exact Ends.bind_total (Ends.checking _ _ _) fun _ _ => rfl
  | _ =>
    simp only [Class.verdict, failureOf?_discard]
    exact Ends.bind_total (Ends.checking _ _ _) fun _ _ => rfl

/-! ## The walk -/

theorem expandInterface_function (aliases : List String) (args : List SyntaxTree) (f : Function) :
    expandInterface aliases args f.statement =
      match args with
      | [] => violated .notInterface f.extent?
      | first :: _ => violated .interfaceArguments first.argumentExtent? := by
  cases args <;> rfl

/-- A marked function is never accepted. -/
theorem Ends.enterFunction (s : Surroundings) (f : Function) :
    Ends (s.checking f.extent? (enterFunction s.settings.aliases f)) ((Visit.enterFunction f).failure? s) := by
  have hf : (Visit.enterFunction f).failure? s =
      (failureOf? (Conformance.enterFunction s.settings.aliases f)).map (s.located f.extent?) := by
    rw [Conformance.enterFunction, entry?_eq, Visit.failure?]
    cases entryDecorators s.settings.aliases f.prelude.decorators with
    | nil => rfl
    | cons d rest =>
      cases rest with
      | nil =>
        dsimp only
        rw [Visit.functionFailure]
        cases entryMarker s.settings.aliases d with
        | interface =>
          show _ = (failureOf? (discard (expandInterface _ _ f.statement))).map _
          rw [failureOf?_discard, expandInterface_function]
          cases d.expression.arguments <;> rfl
        | _ => rfl
      | cons second rest => rfl
  rw [hf]
  exact Ends.checking s f.extent? _

/-- What the failure of a list of visits is: that of the first one that has any. -/
def firstFailure? (s : Surroundings) (vs : List Visit) : Option Failure :=
  vs.findSome? (Visit.failure? s)

theorem firstFailure?_cons (s : Surroundings) (v : Visit) (vs : List Visit) :
    firstFailure? s (v :: vs) = (v.failure? s).or (firstFailure? s vs) := by
  rw [firstFailure?, firstFailure?, List.findSome?_cons]
  cases v.failure? s <;> rfl

theorem firstFailure?_append (s : Surroundings) (vs ws : List Visit) :
    firstFailure? s (vs ++ ws) = (firstFailure? s vs).or (firstFailure? s ws) :=
  List.findSome?_append

mutual

/-- The walk is told whether it is inside a marked class, and that is what it needs to know of the classes
around. -/
theorem expandStatement_ends (s : Surroundings) (around : List Class) (st : Statement) :
    Ends (expandStatement s (around.any (Class.isMarked s.settings.aliases)) st)
      (firstFailure? s (st.visits s.settings.aliases around)) := by
  match st with
  | .simple lead body stop => exact Ends.pure _
  | .clause lead head body =>
    exact Ends.bind_total (expandSuite_ends s around body) fun _ _ => rfl
  | .ofFunction prelude head body =>
    rw [Statement.visits, firstFailure?_cons]
    exact Ends.bind (Ends.enterFunction s { prelude, head, body }) fun _ =>
      Ends.bind_total (expandSuite_ends s around body) fun _ _ => rfl
  | .ofClass prelude head body =>
    let c : Class := { prelude, head, body }
    have hvisits : firstFailure? s (Statement.visits s.settings.aliases around (.ofClass prelude head body)) =
        ((Visit.enterClass around c).failure? s).or
          ((firstFailure? s (body.visits s.settings.aliases (c :: around))).or
            (firstFailure? s (if c.isMarked s.settings.aliases then [.leaveClass c] else []))) := by
      rw [Statement.visits, firstFailure?_cons, firstFailure?_append]
    have hbody := expandSuite_ends s (c :: around) body
    have hmarked := Class.isMarked_iff s.settings.aliases c
    rw [List.any_cons] at hbody
    rw [hvisits, expandStatement, enterClass_eq, Visit.failure?]
    cases hd : entryDecorators s.settings.aliases prelude.decorators with
    | nil =>
      have hc : c.isMarked s.settings.aliases = false := by
        rw [Bool.eq_false_iff, Ne, hmarked]
        exact not_not_intro hd
      rw [hc, Bool.false_or] at hbody
      show Ends _ (none.or _)
      rw [Option.none_or, hc]
      exact Ends.checking_ok (Ends.bind hbody fun _ => Ends.pure _)
    | cons d rest =>
      have hc : c.isMarked s.settings.aliases = true := by
        rw [hmarked]
        exact fun h => List.cons_ne_nil d rest (hd.symm.trans h)
      rw [hc, Bool.true_or] at hbody
      rw [hc]
      cases rest with
      | nil =>
        cases around.any (Class.isMarked s.settings.aliases) with
        | true => exact Ends.throw _
        | false =>
          have hleave : firstFailure? s [.leaveClass c] =
              (failureOf? (c.verdict s (entryMarker s.settings.aliases d) d)).map (s.located c.extent?) := by
            rw [firstFailure?_cons, Visit.failure?, hd]
            exact Option.or_none
          show Ends _ (none.or _)
          rw [Option.none_or, if_pos rfl, hleave]
          exact Ends.checking_ok (Ends.bind hbody fun _ => Ends.expandClass s _ d c)
      | cons second rest => exact Ends.throw _

theorem expandSuite_ends (s : Surroundings) (around : List Class) (b : Suite) :
    Ends (expandSuite s (around.any (Class.isMarked s.settings.aliases)) b)
      (firstFailure? s (b.visits s.settings.aliases around)) := by
  match b with
  | .inline body stop => exact Ends.pure _
  | .block opening indent body footer =>
    exact Ends.bind_total (expandStatements_ends s around body) fun _ _ => rfl

theorem expandStatements_ends (s : Surroundings) (around : List Class) (ss : List Statement) :
    Ends (expandStatements s (around.any (Class.isMarked s.settings.aliases)) ss)
      (firstFailure? s (visitsOf s.settings.aliases around ss)) := by
  match ss with
  | [] => exact Ends.pure _
  | st :: ss =>
    rw [visitsOf, firstFailure?_append]
    exact Ends.bind (expandStatement_ends s around st) fun _ =>
      Ends.bind_total (expandStatements_ends s around ss) fun _ _ => rfl

end

/-! ## Modules -/

theorem expandModule_ends (settings : Settings) (filename : String) (m : Module) :
    Ends (expandModule settings filename m)
      (firstFailure? (m.surroundings settings filename) (m.visits settings.aliases)) :=
  Ends.bind_total (expandStatements_ends (m.surroundings settings filename) [] m.body) fun _ _ => rfl

theorem exists_ok_iff {α : Type} {r : Except Failure α × Progress} :
    (∃ a p, r = (.ok a, p)) ↔ failureOf? r.1 = none := by
  obtain ⟨_ | a, p⟩ := r
  · simp [failureOf?]
  · simp [failureOf?]

theorem eq_error_of_failureOf? {α : Type} {r : Except Failure α × Progress} {f : Failure}
    (h : failureOf? r.1 = some f) : r = (.error f, r.2) := by
  obtain ⟨e | a, p⟩ := r
  · cases h
    rfl
  · cases h

/-- An expansion succeeds if no visit is bad, and otherwise it fails with what the first bad visit is blamed
with. -/
theorem expandModule_fails_at_first_bad_visit (settings : Settings) (filename : String) (m : Module)
    (p : Progress) :
    ((∃ m' p', (expandModule settings filename m).run p = (.ok m', p')) ↔
      ∀ v ∈ m.visits settings.aliases, ¬ v.Bad (m.surroundings settings filename)) ∧
    ∀ before v after, m.visits settings.aliases = before ++ v :: after →
      (∀ u ∈ before, ¬ u.Bad (m.surroundings settings filename)) → v.Bad (m.surroundings settings filename) →
      ∃ f p', v.failure? (m.surroundings settings filename) = some f ∧
        (expandModule settings filename m).run p = (.error f, p') := by
  have hends := expandModule_ends settings filename m p
  have hgood : ∀ v, ¬ Visit.Bad (m.surroundings settings filename) v ↔
      v.failure? (m.surroundings settings filename) = none := by
    intro v
    rw [Visit.bad_iff, Option.not_isSome_iff_eq_none]
  constructor
  · rw [exists_ok_iff, hends, firstFailure?, List.findSome?_eq_none_iff]
    exact forall₂_congr fun v _ => (hgood v).symm
  · intro before v after hsplit hbefore hv
    obtain ⟨f, hf⟩ := Option.isSome_iff_exists.mp ((Visit.bad_iff _ v).mp hv)
    have hfirst : firstFailure? (m.surroundings settings filename) (m.visits settings.aliases) = some f := by
      rw [firstFailure?, List.findSome?_eq_some_iff]
      exact ⟨before, v, after, hsplit, hf, fun u hu => (hgood u).mp (hbefore u hu)⟩
    exact ⟨f, _, hf, eq_error_of_failureOf? (hends.trans hfirst)⟩

/-- An implementation that stands in an interface. -/
def innerClass : Class := decoratedClass "test_impl" "Inner" [] []

def outerClass : Class := decoratedClass "tested_trait" "Outer" [] [innerClass.statement]

def nestedModule : Module := { body := [outerClass.statement] }

/-- The inner marker is blamed before the interface is looked at. -/
theorem expandModule_nested_marker_fails :
    ∃ f p', (Visit.enterClass [outerClass] innerClass).failure? (nestedModule.surroundings {} "<string>") = some f ∧
      (expandModule {} "<string>" nestedModule).run {} = (.error f, p') := by
  apply (expandModule_fails_at_first_bad_visit {} "<string>" nestedModule {}).2 [.enterClass [] outerClass] _ _ rfl
  · intro u hu
    rw [List.mem_singleton.mp hu]
    rintro (h | ⟨-, a, ha, -⟩)
    · exact absurd h (by decide)
    · cases ha
  · exact .inr ⟨by decide, outerClass, List.mem_singleton_self outerClass, by decide⟩

end Conformance
