import Conformance.Proofs.Interface.Basic
import Conformance.Proofs.Marker

/-!
# Steps of an expansion

What is known of a statement that is expanded without a failure, one lemma for each kind of statement.  Proofs about
expansions go by these and do not open the expansion itself.
-/

namespace Conformance

open Source

/-- What the expansion of a module depends on. -/
def Source.Module.surroundings (settings : Settings) (filename : String) (m : Module) : Surroundings :=
  { settings, filename, typeVariables := typeVariables m }

/-! ## What a step does -/

/-- A check that passes changes nothing. -/
theorem checking_eq_ok {α : Type} {s : Surroundings} {definition : Option Extent} {r : Except Failure α}
    {a : α} {p q : Progress} (h : s.checking definition r p = (.ok a, q)) : r = .ok a ∧ q = p := by
  cases r with
  | ok b =>
    cases h
    exact ⟨rfl, rfl⟩
  | error e => cases h

theorem enterClass_eq (aliases : List String) (inside : Bool) (c : Class) :
    enterClass aliases inside c =
      match entryDecorators aliases c.prelude.decorators with
      | [] => .ok none
      | [d] =>
        if inside then violated (.nestedMarker (entryMarker aliases d).word) d.extent?
        else .ok (some (entryMarker aliases d, d))
      | _ :: second :: _ => violated .repeatedMarker second.extent? := by
  rw [enterClass, entry?_eq]
  cases entryDecorators aliases c.prelude.decorators with
  | nil => rfl
  | cons d rest => cases rest <;> rfl

theorem enterClass_eq_ok {aliases : List String} {inside : Bool} {c : Class} {o : Option (Marker × Decorator)}
    (h : enterClass aliases inside c = .ok o) :
    (entryDecorators aliases c.prelude.decorators = [] ∧ o = none) ∨
      ∃ d, entryDecorators aliases c.prelude.decorators = [d] ∧ inside = false ∧
        o = some (entryMarker aliases d, d) := by
  rw [enterClass_eq] at h
  cases hd : entryDecorators aliases c.prelude.decorators with
  | nil =>
    rw [hd] at h
    cases h
    exact .inl ⟨rfl, rfl⟩
  | cons d rest =>
    rw [hd] at h
    cases rest with
    | nil =>
      cases inside with
      | true => cases h
      | false =>
        cases h
        exact .inr ⟨d, rfl, rfl, rfl⟩
    | cons second rest => cases h

/-- A class that is expanded without a failure is unmarked and rewritten inside, or it is marked, stands in no
marked class and is replaced after its body was walked through. -/
theorem expandStatement_class_cases {s : Surroundings} {inside : Bool} {prelude : Prelude} {head : ClassHead}
    {body : Suite} {out : List Statement} {p q : Progress}
    (h : expandStatement s inside (.ofClass prelude head body) p = (.ok out, q)) :
    (entryDecorators s.settings.aliases prelude.decorators = [] ∧
      ∃ body', expandSuite s inside body p = (.ok body', q) ∧ out = [.ofClass prelude head body']) ∨
    ∃ d body' r, entryDecorators s.settings.aliases prelude.decorators = [d] ∧ inside = false ∧
      expandSuite s true body p = (.ok body', r) ∧
      expandClass s (entryMarker s.settings.aliases d) d { prelude, head, body } r = (.ok out, q) := by
  rw [expandStatement] at h
  obtain ⟨o, p', hcheck, hrest⟩ := Computation.bind_eq_ok h
  obtain ⟨henter, rfl⟩ := checking_eq_ok hcheck
  rcases enterClass_eq_ok henter with ⟨hd, rfl⟩ | ⟨d, hd, hinside, rfl⟩
  · obtain ⟨body', q', hbody, hout⟩ := Computation.bind_eq_ok hrest
    cases hout
    exact .inl ⟨hd, body', hbody, rfl⟩
  · obtain ⟨body', r, hbody, hclass⟩ := Computation.bind_eq_ok hrest
    exact .inr ⟨d, body', r, hd, hinside, hbody, hclass⟩

theorem expandStatement_function_cases {s : Surroundings} {inside : Bool} {prelude : Prelude} {head : FunctionHead}
    {body : Suite} {out : List Statement} {p q : Progress}
    (h : expandStatement s inside (.ofFunction prelude head body) p = (.ok out, q)) :
    ∃ body', expandSuite s inside body p = (.ok body', q) ∧ out = [.ofFunction prelude head body'] := by
  rw [expandStatement] at h
  obtain ⟨_, p', hcheck, hrest⟩ := Computation.bind_eq_ok h
  obtain ⟨-, rfl⟩ := checking_eq_ok hcheck
  obtain ⟨body', q', hbody, hout⟩ := Computation.bind_eq_ok hrest
  cases hout
  exact ⟨body', hbody, rfl⟩

theorem expandStatement_clause_cases {s : Surroundings} {inside : Bool} {lead : List Line} {head : SyntaxTree}
    {body : Suite} {out : List Statement} {p q : Progress}
    (h : expandStatement s inside (.clause lead head body) p = (.ok out, q)) :
    ∃ body', expandSuite s inside body p = (.ok body', q) ∧ out = [.clause lead head body'] := by
  rw [expandStatement] at h
  obtain ⟨body', q', hbody, h⟩ := Computation.bind_eq_ok h
  cases h
  exact ⟨body', hbody, rfl⟩

theorem expandSuite_block_cases {s : Surroundings} {inside : Bool} {opening : LineEnd} {indent : Option String}
    {body : List Statement} {footer : List Line} {b : Suite} {p q : Progress}
    (h : expandSuite s inside (.block opening indent body footer) p = (.ok b, q)) :
    ∃ body', expandStatements s inside body p = (.ok body', q) ∧ b = .block opening indent body' footer := by
  rw [expandSuite] at h
  obtain ⟨body', q', hbody, h⟩ := Computation.bind_eq_ok h
  cases h
  exact ⟨body', hbody, rfl⟩

theorem expandStatements_cons_cases {s : Surroundings} {inside : Bool} {st : Statement} {ss out : List Statement}
    {p q : Progress} (h : expandStatements s inside (st :: ss) p = (.ok out, q)) :
    ∃ first rest r, expandStatement s inside st p = (.ok first, r) ∧
      expandStatements s inside ss r = (.ok rest, q) ∧ out = first ++ rest := by
  rw [expandStatements] at h
  obtain ⟨first, r, hfirst, h⟩ := Computation.bind_eq_ok h
  obtain ⟨rest, q', hrest, h⟩ := Computation.bind_eq_ok h
  cases h
  exact ⟨first, rest, r, hfirst, hrest, rfl⟩

theorem expandClass_interface_cases {s : Surroundings} {c : Class} {d : Decorator} {out : List Statement}
    {p q : Progress} (h : expandClass s .interface d c p = (.ok out, q)) :
    ∃ c', expandInterface s.settings.aliases d.expression.arguments (c.unmarked s.settings.aliases).statement =
        .ok c' ∧
      out = [c'.statement] ∧ q.counter = p.counter ∧ q.interfaces = p.interfaces ++ [c.name] ∧
      q.implementations = p.implementations := by
  obtain ⟨c', p', hcheck, hrest⟩ := Computation.bind_eq_ok h
  obtain ⟨hc', rfl⟩ := checking_eq_ok hcheck
  cases hrest
  exact ⟨c', hc', rfl, rfl, rfl, rfl⟩

theorem expandClass_implementation_cases {s : Surroundings} {c : Class} {d : Decorator} {out : List Statement}
    {p q : Progress} (h : expandClass s .implementation d c p = (.ok out, q)) :
    ∃ i, Implementation.read s.settings.aliases s.typeVariables d.expression.arguments
        (c.unmarked s.settings.aliases).statement = .ok i ∧
      out = i.expanded s.settings.testPrefix p.counter ∧ q.counter = p.counter + i.instantiations.length ∧
      q.interfaces = p.interfaces ∧ q.implementations = p.implementations ++ [c.name] := by
  obtain ⟨i, p', hcheck, hrest⟩ := Computation.bind_eq_ok h
  obtain ⟨hi, rfl⟩ := checking_eq_ok hcheck
  cases hrest
  exact ⟨i, hi, rfl, rfl, rfl, rfl⟩

end Conformance
