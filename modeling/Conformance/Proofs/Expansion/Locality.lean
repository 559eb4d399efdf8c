import Conformance.Proofs.Expansion.Basic

/-!
# Expansion is local

`Rewrites s n st out n'` says what becomes of a statement if the next generated function has number `n`: a marked
class is replaced by its expansion, wherever it stands, and nothing else changes.  An expansion that succeeds
rewrites the module in this sense, and it reports the marked classes in the order of the text:

    (expandModule settings filename m).run p = (.ok m', q) →
      RewritesAll s p.counter m.body m'.body q.counter ∧
        q.interfaces = p.interfaces ++ classNames aliases .interface (classesOf m.body) ∧ …

The walk also goes through the body of a marked class, but only to reject markers there: `expandSuite_inside` says
that it changes nothing.
-/

namespace Conformance

open Source

/-! ## Rewriting -/

mutual

/-- How a statement is rewritten, and to which number the generated functions count meanwhile. -/
inductive Rewrites (s : Surroundings) : Nat → Statement → List Statement → Nat → Prop
  | line {n : Nat} {lead : List Line} {body : SyntaxTree} {stop : LineEnd} :
      Rewrites s n (.simple lead body stop) [.simple lead body stop] n
  | clause {n n' : Nat} {lead : List Line} {head : SyntaxTree} {body body' : Suite} :
      RewritesSuite s n body body' n' → Rewrites s n (.clause lead head body) [.clause lead head body'] n'
  | function {n n' : Nat} {prelude : Prelude} {head : FunctionHead} {body body' : Suite} :
      RewritesSuite s n body body' n' →
      Rewrites s n (.ofFunction prelude head body) [.ofFunction prelude head body'] n'
  | unmarked {n n' : Nat} {prelude : Prelude} {head : ClassHead} {body body' : Suite} :
      entryDecorators s.settings.aliases prelude.decorators = [] → RewritesSuite s n body body' n' →
      Rewrites s n (.ofClass prelude head body) [.ofClass prelude head body'] n'
  | interface {n : Nat} {c c' : Class} {d : Decorator} :
      entryDecorators s.settings.aliases c.prelude.decorators = [d] →
      Marker.interface.marks s.settings.aliases d = true →
      expandInterface s.settings.aliases d.expression.arguments (c.unmarked s.settings.aliases).statement = .ok c' →
      Rewrites s n c.statement [c'.statement] n
  | implementation {n : Nat} {c : Class} {d : Decorator} {i : Implementation} :
      entryDecorators s.settings.aliases c.prelude.decorators = [d] →
      Marker.implementation.marks s.settings.aliases d = true →
      Implementation.read s.settings.aliases s.typeVariables d.expression.arguments
        (c.unmarked s.settings.aliases).statement = .ok i →
      Rewrites s n c.statement (i.expanded s.settings.testPrefix n) (n + i.instantiations.length)

/-- How a suite is rewritten: its line or its block stays, with the lines after it. -/
inductive RewritesSuite (s : Surroundings) : Nat → Suite → Suite → Nat → Prop
  | inline {n : Nat} {body : SyntaxTree} {stop : LineEnd} :
      RewritesSuite s n (.inline body stop) (.inline body stop) n
  | block {n n' : Nat} {opening : LineEnd} {indent : Option String} {body body' : List Statement}
      {footer : List Line} :
      RewritesAll s n body body' n' →
      RewritesSuite s n (.block opening indent body footer) (.block opening indent body' footer) n'

/-- How statements are rewritten, one after the other. -/
inductive RewritesAll (s : Surroundings) : Nat → List Statement → List Statement → Nat → Prop
  | nil {n : Nat} : RewritesAll s n [] [] n
  | cons {n n' n'' : Nat} {st : Statement} {ss out rest : List Statement} :
      Rewrites s n st out n' → RewritesAll s n' ss rest n'' → RewritesAll s n (st :: ss) (out ++ rest) n''

end

/-! ## Classes of a module -/

mutual

/-- The classes of a statement, at any depth, in the order of the text. -/
def Source.Statement.classes : Statement → List Class
  | .simple .. => []
  | .clause _ _ body => body.classes
  | .ofFunction _ _ body => body.classes
  | .ofClass prelude head body => { prelude, head, body } :: body.classes

/-- The classes of a suite. -/
def Source.Suite.classes : Suite → List Class
  | .inline .. => []
  | .block _ _ body _ => classesOf body

/-- The classes of some statements. -/
def classesOf : List Statement → List Class
  | [] => []
  | st :: ss => st.classes ++ classesOf ss

end

/-- The names of the classes that carry a marker. -/
def classNames (aliases : List String) (m : Marker) (cs : List Class) : List String :=
  (cs.filter fun c => c.prelude.decorators.any (m.marks aliases)).map Class.name

theorem classNames_append (aliases : List String) (m : Marker) (cs ds : List Class) :
    classNames aliases m (cs ++ ds) = classNames aliases m cs ++ classNames aliases m ds := by
  simp [classNames]

theorem any_marks_eq {aliases : List String} {m : Marker} (hm : m ∈ entryMarkers) (ds : List Decorator) :
    ds.any (m.marks aliases) = (entryDecorators aliases ds).any (m.marks aliases) := by
  rw [entryDecorators, List.any_filter]
  congr 1
  funext d
  cases h : m.marks aliases d with
  | false => rw [Bool.and_false]
  | true =>
    rw [Bool.and_true, isEntry]
    exact (List.any_eq_true.mpr ⟨m, hm, h⟩).symm

theorem classNames_unmarked {aliases : List String} {m : Marker} (hm : m ∈ entryMarkers) {c : Class}
    (hc : entryDecorators aliases c.prelude.decorators = []) (cs : List Class) :
    classNames aliases m (c :: cs) = classNames aliases m cs := by
  rw [classNames, List.filter_cons, any_marks_eq hm, hc]
  rfl

theorem classNames_marked {aliases : List String} {m : Marker} (hm : m ∈ entryMarkers) {c : Class} {d : Decorator}
    (hc : entryDecorators aliases c.prelude.decorators = [d]) (cs : List Class) :
    classNames aliases m (c :: cs) =
      (if m.marks aliases d then [c.name] else []) ++ classNames aliases m cs := by
  rw [classNames, List.filter_cons, any_marks_eq hm, hc]
  cases h : m.marks aliases d with
  | false => simp [h, classNames]
  | true => simp [h, classNames]

theorem classNames_eq_nil {aliases : List String} {m : Marker} (hm : m ∈ entryMarkers) {cs : List Class}
    (h : ∀ c ∈ cs, entryDecorators aliases c.prelude.decorators = []) : classNames aliases m cs = [] := by
  induction cs with
  | nil => rfl
  | cons c cs ih =>
    rw [classNames_unmarked hm (h c List.mem_cons_self)]
    exact ih fun c' hc' => h c' (List.mem_cons_of_mem c hc')

/-! ## Inside a marked class -/

/-- No class among these carries an entry marker. -/
def Unmarked (aliases : List String) (cs : List Class) : Prop :=
  ∀ c ∈ cs, entryDecorators aliases c.prelude.decorators = []

theorem Unmarked.append {aliases : List String} {cs ds : List Class} (hc : Unmarked aliases cs)
    (hd : Unmarked aliases ds) : Unmarked aliases (cs ++ ds) := by
  intro c h
  rcases List.mem_append.mp h with h | h
  · exact hc c h
  · exact hd c h

mutual

/-- The walk through a marked class finds no marker there, and changes nothing. -/
theorem expandStatement_inside {s : Surroundings} {st : Statement} {out : List Statement} {p q : Progress}
    (h : expandStatement s true st p = (.ok out, q)) :
    out = [st] ∧ q = p ∧ Unmarked s.settings.aliases st.classes := by
  match st with
  | .simple lead body stop =>
    cases h
    exact ⟨rfl, rfl, fun c hc => nomatch hc⟩
  | .clause lead head body =>
    obtain ⟨body', hbody, rfl⟩ := expandStatement_clause_cases h
    obtain ⟨rfl, rfl, hclasses⟩ := expandSuite_inside hbody
    exact ⟨rfl, rfl, hclasses⟩
  | .ofFunction prelude head body =>
    obtain ⟨body', hbody, rfl⟩ := expandStatement_function_cases h
    obtain ⟨rfl, rfl, hclasses⟩ := expandSuite_inside hbody
    exact ⟨rfl, rfl, hclasses⟩
  | .ofClass prelude head body =>
    rcases expandStatement_class_cases h with ⟨hd, body', hbody, rfl⟩ | ⟨d, body', r, hd, hinside, _⟩
    · obtain ⟨rfl, rfl, hclasses⟩ := expandSuite_inside hbody
      refine ⟨rfl, rfl, fun c hc => ?_⟩
      rw [Statement.classes] at hc
      rcases List.mem_cons.mp hc with rfl | hc
      · exact hd
      · exact hclasses c hc
    · cases hinside

theorem expandSuite_inside {s : Surroundings} {b b' : Suite} {p q : Progress}
    (h : expandSuite s true b p = (.ok b', q)) :
    b' = b ∧ q = p ∧ Unmarked s.settings.aliases b.classes := by
  match b with
  | .inline body stop =>
    cases h
    exact ⟨rfl, rfl, fun c hc => nomatch hc⟩
  | .block opening indent body footer =>
    obtain ⟨body', hbody, rfl⟩ := expandSuite_block_cases h
    obtain ⟨rfl, rfl, hclasses⟩ := expandStatements_inside hbody
    exact ⟨rfl, rfl, hclasses⟩

theorem expandStatements_inside {s : Surroundings} {ss out : List Statement} {p q : Progress}
    (h : expandStatements s true ss p = (.ok out, q)) :
    out = ss ∧ q = p ∧ Unmarked s.settings.aliases (classesOf ss) := by
  match ss with
  | [] =>
    cases h
    exact ⟨rfl, rfl, fun c hc => nomatch hc⟩
  | st :: ss =>
    obtain ⟨first, rest, r, hfirst, hrest, rfl⟩ := expandStatements_cons_cases h
    obtain ⟨rfl, rfl, hclasses⟩ := expandStatement_inside hfirst
    obtain ⟨rfl, rfl, hclasses'⟩ := expandStatements_inside hrest
    exact ⟨rfl, rfl, hclasses.append hclasses'⟩

end

/-! ## Progress -/

/-- The progress of an expansion that has dealt with some classes: it has noted the names of the marked ones. -/
structure Notes (aliases : List String) (cs : List Class) (p q : Progress) : Prop where
  interfaces : q.interfaces = p.interfaces ++ classNames aliases .interface cs
  implementations : q.implementations = p.implementations ++ classNames aliases .implementation cs

theorem Notes.nil (aliases : List String) (p : Progress) : Notes aliases [] p p :=
  ⟨(List.append_nil _).symm, (List.append_nil _).symm⟩

theorem Notes.append {aliases : List String} {cs ds : List Class} {p q r : Progress} (h : Notes aliases cs p q)
    (h' : Notes aliases ds q r) : Notes aliases (cs ++ ds) p r := by
  constructor
  · rw [h'.interfaces, h.interfaces, classNames_append, List.append_assoc]
  · rw [h'.implementations, h.implementations, classNames_append, List.append_assoc]

theorem Notes.unmarked {aliases : List String} {c : Class} {cs : List Class} {p q : Progress}
    (hc : entryDecorators aliases c.prelude.decorators = []) (h : Notes aliases cs p q) :
    Notes aliases (c :: cs) p q := by
  constructor
  · rw [classNames_unmarked (by decide) hc, h.interfaces]
  · rw [classNames_unmarked (by decide) hc, h.implementations]

/-- The expansion of a marked class replaces it; `cs` are the classes in its body. -/
theorem expandClass_rewrites {s : Surroundings} {c : Class} {d : Decorator} {out : List Statement}
    {p q : Progress} {cs : List Class} (hd : entryDecorators s.settings.aliases c.prelude.decorators = [d])
    (hcs : Unmarked s.settings.aliases cs)
    (h : expandClass s (entryMarker s.settings.aliases d) d c p = (.ok out, q)) :
    Rewrites s p.counter c.statement out q.counter ∧ Notes s.settings.aliases (c :: cs) p q := by
  have hmark : (entryMarker s.settings.aliases d).marks s.settings.aliases d = true := by
    apply entryMarker_marks
    have hmem : d ∈ entryDecorators s.settings.aliases c.prelude.decorators := hd ▸ List.mem_singleton_self d
    exact (List.mem_filter.mp hmem).2
  have hinterface : classNames s.settings.aliases .interface cs = [] := classNames_eq_nil (by decide) hcs
  have himplementation : classNames s.settings.aliases .implementation cs = [] :=
    classNames_eq_nil (by decide) hcs
  by_cases hi : Marker.interface.marks s.settings.aliases d = true
  · have hj : Marker.implementation.marks s.settings.aliases d = false := by
      rw [Bool.eq_false_iff]
      intro hj
      cases Marker.marks_unique hi hj
    rw [entryMarker, if_pos hi] at h
    obtain ⟨c', hc', rfl, hcounter, hq, hq'⟩ := expandClass_interface_cases h
    rw [hcounter]
    refine ⟨.interface hd hi hc', ?_, ?_⟩
    · rw [classNames_marked (by decide) hd, if_pos hi, hinterface, hq]
      rfl
    · rw [classNames_marked (by decide) hd, hj, himplementation, hq']
      exact (List.append_nil _).symm
  · rw [entryMarker, if_neg hi] at h hmark
    obtain ⟨i, hread, rfl, hcounter, hq, hq'⟩ := expandClass_implementation_cases h
    rw [hcounter]
    refine ⟨.implementation hd hmark hread, ?_, ?_⟩
    · rw [classNames_marked (by decide) hd, if_neg hi, hinterface, hq]
      exact (List.append_nil _).symm
    · rw [classNames_marked (by decide) hd, if_pos hmark, himplementation, hq']
      rfl

/-! ## The whole walk -/

mutual

theorem expandStatement_rewrites {s : Surroundings} {inside : Bool} {st : Statement} {out : List Statement}
    {p q : Progress} (h : expandStatement s inside st p = (.ok out, q)) :
    Rewrites s p.counter st out q.counter ∧ Notes s.settings.aliases st.classes p q := by
  match st with
  | .simple lead body stop =>
    cases h
    exact ⟨.line, Notes.nil _ _⟩
  | .clause lead head body =>
    obtain ⟨body', hbody, rfl⟩ := expandStatement_clause_cases h
    obtain ⟨hrewrites, hnotes⟩ := expandSuite_rewrites hbody
    exact ⟨.clause hrewrites, hnotes⟩
  | .ofFunction prelude head body =>
    obtain ⟨body', hbody, rfl⟩ := expandStatement_function_cases h
    obtain ⟨hrewrites, hnotes⟩ := expandSuite_rewrites hbody
    exact ⟨.function hrewrites, hnotes⟩
  | .ofClass prelude head body =>
    rcases expandStatement_class_cases h with ⟨hd, body', hbody, rfl⟩ | ⟨d, body', r, hd, -, hbody, hclass⟩
    · obtain ⟨hrewrites, hnotes⟩ := expandSuite_rewrites hbody
      exact ⟨.unmarked hd hrewrites, hnotes.unmarked hd⟩
    · obtain ⟨-, rfl, hclasses⟩ := expandSuite_inside hbody
      exact expandClass_rewrites hd hclasses hclass

theorem expandSuite_rewrites {s : Surroundings} {inside : Bool} {b b' : Suite} {p q : Progress}
    (h : expandSuite s inside b p = (.ok b', q)) :
    RewritesSuite s p.counter b b' q.counter ∧ Notes s.settings.aliases b.classes p q := by
  match b with
  | .inline body stop =>
    cases h
    exact ⟨.inline, Notes.nil _ _⟩
  | .block opening indent body footer =>
    obtain ⟨body', hbody, rfl⟩ := expandSuite_block_cases h
    obtain ⟨hrewrites, hnotes⟩ := expandStatements_rewrites hbody
    exact ⟨.block hrewrites, hnotes⟩

theorem expandStatements_rewrites {s : Surroundings} {inside : Bool} {ss out : List Statement}
    {p q : Progress} (h : expandStatements s inside ss p = (.ok out, q)) :
    RewritesAll s p.counter ss out q.counter ∧ Notes s.settings.aliases (classesOf ss) p q := by
  match ss with
  | [] =>
    cases h
    exact ⟨.nil, Notes.nil _ _⟩
  | st :: ss =>
    obtain ⟨first, rest, r, hfirst, hrest, rfl⟩ := expandStatements_cons_cases h
    obtain ⟨hrewrites, hnotes⟩ := expandStatement_rewrites hfirst
    obtain ⟨hrewrites', hnotes'⟩ := expandStatements_rewrites hrest
    exact ⟨.cons hrewrites hrewrites', hnotes.append hnotes'⟩

end

/-- An expansion that succeeds replaces every marked class by its expansion, changes nothing else, and reports the
names of the marked classes in the order of the text. -/
theorem expandModule_rewrites (settings : Settings) (filename : String) (m : Module) {m' : Module} {p q : Progress}
    (h : (expandModule settings filename m).run p = (.ok m', q)) :
    RewritesAll (m.surroundings settings filename) p.counter m.body m'.body q.counter ∧
      m'.style = m.style ∧ m'.footer = m.footer ∧ m'.ended = m.ended ∧
      q.interfaces = p.interfaces ++ classNames settings.aliases .interface (classesOf m.body) ∧
      q.implementations = p.implementations ++ classNames settings.aliases .implementation (classesOf m.body) := by
  obtain ⟨body', q', hbody, hout⟩ := Computation.bind_eq_ok h
  cases hout
  obtain ⟨hrewrites, hnotes⟩ := expandStatements_rewrites hbody
  exact ⟨hrewrites, rfl, rfl, rfl, hnotes.interfaces, hnotes.implementations⟩

/-- An interface, a comment and an implementation under one condition. -/
def conditionalModule : Module :=
  { body := [.clause [] (.node .ifHead [.ofWord "if", .ofName "ready", .ofOperator ":"])
      (.block {} none
        [(decoratedClass "tested_trait" "Shape" [] []).statement,
          .simple [{ comment := "# kept" }] (.ofName "ready") {},
          (decoratedClass "test_impl" "Square" ["Shape"] []).statement] [])] }

theorem expandModule_rewrites_conditional :
    ∃ m' q, (expandModule {} "<string>" conditionalModule).run {} = (.ok m', q) ∧
      RewritesAll (conditionalModule.surroundings {} "<string>") 0 conditionalModule.body m'.body 1 ∧
      q.interfaces = ["Shape"] ∧ q.implementations = ["Square"] := by
  have h := expandModule_rewrites {} "<string>" conditionalModule (p := {}) rfl
  exact ⟨_, _, rfl, h.1, h.2.2.2.2.1, h.2.2.2.2.2⟩

end Conformance
