import Mathlib.Data.List.Nodup
import Conformance.Proofs.Expansion.FirstFailure

/-!
# Numbers of generated functions

A process expands modules and single classes, one after the other, and all of them take the numbers of the functions
they generate from one counter.  The names over the whole process are those of the completed implementations, numbered
from zero in the order in which their classes are left:

    generatedNames 0 jobs = numbered 0 (jobs.flatMap Job.labels)      (generatedNames_eq)

The number can be read off a name, whatever stands before it, so no two names are equal.

An expansion that fails throws away what it has written, but it keeps its progress.  `performAll` carries out the visits
of a walk one after the other and keeps both, and `expandStatement_performs` says that this is what the walk does.
-/

namespace Conformance

open Source

/-! ## The number of a name -/

namespace Naming

/-- The number that a name ends with. -/
def numberOf (name : String) : Nat :=
  Nat.ofDigitChars 10 (name.toList.reverse.takeWhile Char.isDigit).reverse 0

theorem isDigit_of_mem_repr {n : Nat} {c : Char} (h : c ∈ n.repr.toList) : c.isDigit = true := by
  rw [Nat.repr, String.toList_ofList] at h
  exact Nat.isDigit_of_mem_toDigits (by decide) (by decide) h

/-- The underscore before the number keeps it apart from what stands there, be it digits again. -/
theorem numberOf_synthesized (discovery : String) (interface : SyntaxTree) (n : Nat) :
    numberOf (synthesized discovery interface n) = n := by
  have hdigits : ∀ c ∈ n.repr.toList.reverse, c.isDigit = true := fun c hc =>
    isDigit_of_mem_repr (List.mem_reverse.mp hc)
  have hstop : ("_".toList.reverse ++ (discovery ++ "trait_impl_" ++ interfaceName interface).toList.reverse).takeWhile
      Char.isDigit = [] := rfl
  rw [numberOf, synthesized, String.toList_append, String.toList_append, List.reverse_append, List.reverse_append,
    List.takeWhile_append_of_pos hdigits, hstop, List.append_nil, List.reverse_reverse, Nat.repr,
    String.toList_ofList, Nat.ofDigitChars_ten_toDigits]

end Naming

/-- What a generated name is made from besides its number: its beginning and the interface. -/
abbrev Label := String × SyntaxTree

/-- The names for some labels, numbered from `n` on. -/
def numbered (n : Nat) : List Label → List String
  | [] => []
  | l :: ls => Naming.synthesized l.1 l.2 n :: numbered (n + 1) ls

@[simp] theorem length_numbered (n : Nat) (ls : List Label) : (numbered n ls).length = ls.length := by
  induction ls generalizing n with
  | nil => rfl
  | cons l ls ih => simp [numbered, ih]

theorem numbered_append (n : Nat) (ls ls' : List Label) :
    numbered n (ls ++ ls') = numbered n ls ++ numbered (n + ls.length) ls' := by
  induction ls generalizing n with
  | nil => rfl
  | cons l ls ih =>
    have hn : n + (l :: ls).length = n + 1 + ls.length := by
      rw [List.length_cons]
      omega
    rw [List.cons_append, numbered, ih, numbered, hn, List.cons_append]

theorem numberOf_numbered (n : Nat) (ls : List Label) :
    (numbered n ls).map Naming.numberOf = List.range' n ls.length := by
  induction ls generalizing n with
  | nil => rfl
  | cons l ls ih => rw [numbered, List.map_cons, Naming.numberOf_synthesized, ih, List.length_cons, List.range'_succ]

/-- Names that are numbered one after the other differ, whatever their labels are. -/
theorem nodup_numbered (n : Nat) (ls : List Label) : (numbered n ls).Nodup := by
  apply List.Nodup.of_map Naming.numberOf
  rw [numberOf_numbered]
  exact List.nodup_range'

/-! ## Generated functions -/

/-- The functions that statements define, not looking inside them. -/
def functionsAmong (ss : List Statement) : List Function :=
  ss.filterMap Statement.function?

@[simp] theorem functionsAmong_append (ss ts : List Statement) :
    functionsAmong (ss ++ ts) = functionsAmong ss ++ functionsAmong ts :=
  List.filterMap_append

/-- The labels of the functions of an implementation. -/
def Implementation.labels (discovery : String) (i : Implementation) : List Label :=
  i.instantiations.map fun inst => (if i.inline then "" else discovery, inst.interface)

@[simp] theorem Implementation.length_labels (discovery : String) (i : Implementation) :
    (i.labels discovery).length = i.instantiations.length := by
  simp [labels]

theorem Implementation.functionNames_eq (discovery : String) (next : Nat) (i : Implementation) :
    i.functionNames discovery next = numbered next (i.labels discovery) := by
  unfold functionNames labels
  generalize (if i.inline then "" else discovery) = beginning
  have hshift : ∀ (insts : List Instantiation) (k : Nat),
      ((insts.zipIdx k).map fun p => Naming.synthesized beginning p.1.interface (next + p.2)) =
        numbered (next + k) (insts.map fun inst => (beginning, inst.interface)) := by
    intro insts
    induction insts with
    | nil => intro k; rfl
    | cons inst insts ih =>
      intro k
      rw [List.zipIdx_cons, List.map_cons, ih, List.map_cons, numbered]
      rfl
  exact hshift i.instantiations 0

theorem functionsAmong_calls (names : List String) : functionsAmong (Implementation.calls names) = [] := by
  cases names with
  | nil => rfl
  | cons name names =>
    have hrest : functionsAmong (names.map fun n => Statement.ofExpression ((SyntaxTree.ofName n).apply [])) = [] := by
      induction names with
      | nil => rfl
      | cons name names ih => exact ih
    exact hrest

/-- The functions that an implementation is expanded into are named by its labels. -/
theorem Implementation.names_expanded (discovery : String) (next : Nat) (i : Implementation) :
    (functionsAmong (i.expanded discovery next)).map Function.name = numbered next (i.labels discovery) := by
  have hfunctions : ∀ (names : List String) (insts : List Instantiation), names.length = insts.length →
      (functionsAmong (List.zipWith functionFor names insts)).map Function.name = names := by
    intro names
    induction names with
    | nil => intro insts _; rfl
    | cons name names ih =>
      intro insts hlen
      cases insts with
      | nil => cases hlen
      | cons inst insts => exact congrArg (name :: ·) (ih insts (Nat.succ.inj hlen))
  have hlen : (i.functionNames discovery next).length = i.instantiations.length := by
    rw [functionNames_eq, length_numbered, length_labels]
  have hcalls : functionsAmong (if i.inline then calls (i.functionNames discovery next) else []) = [] := by
    cases i.inline with
    | true => exact functionsAmong_calls _
    | false => rfl
  unfold expanded
  rw [functionsAmong_append, functionsAmong_append, hcalls, List.append_nil, List.map_append, hfunctions _ _ hlen,
    functionNames_eq]
  rfl

/-! ## Visits carried out -/

/-- Writes nothing, unless there is something to blame. -/
def blaming (o : Option Failure) : Expand (List Statement) :=
  match o with
  | none => pure []
  | some f => throw f

namespace Visit

/-- Carries out a visit: what is written in place of a class that is left. -/
def perform (s : Surroundings) : Visit → Expand (List Statement)
  | leaveClass c =>
    match entryDecorators s.settings.aliases c.prelude.decorators with
    | [] => pure []
    | d :: _ => expandClass s (entryMarker s.settings.aliases d) d c
  | enterClass around c => blaming ((enterClass around c).failure? s)
  | enterFunction f => blaming ((enterFunction f).failure? s)

/-- The implementation that a visit completes. -/
def completed? (s : Surroundings) : Visit → Option Implementation
  | leaveClass c =>
    match entryDecorators s.settings.aliases c.prelude.decorators with
    | [] => none
    | d :: _ =>
      if entryMarker s.settings.aliases d = .implementation then
        (Implementation.read s.settings.aliases s.typeVariables d.expression.arguments
          (c.unmarked s.settings.aliases).statement).toOption
      else none
  | _ => none

end Visit

/-- What comes of visits that are carried out one after the other, up to the first that fails. -/
structure Performance where
  written : List Statement := []
  failure : Option Failure := none
  progress : Progress

def performAll (s : Surroundings) : List Visit → Progress → Performance
  | [], p => { progress := p }
  | v :: vs, p =>
    match v.perform s p with
    | (.ok out, q) => { performAll s vs q with written := out ++ (performAll s vs q).written }
    | (.error f, q) => { failure := some f, progress := q }

theorem performAll_cons_of_ok {s : Surroundings} {v : Visit} {out : List Statement} {p q : Progress}
    (h : v.perform s p = (.ok out, q)) (vs : List Visit) :
    performAll s (v :: vs) p = { performAll s vs q with written := out ++ (performAll s vs q).written } := by
  rw [performAll, h]

theorem performAll_cons_of_error {s : Surroundings} {v : Visit} {f : Failure} {p q : Progress}
    (h : v.perform s p = (.error f, q)) (vs : List Visit) :
    performAll s (v :: vs) p = { failure := some f, progress := q } := by
  rw [performAll, h]

theorem performAll_append_of_failure {s : Surroundings} {vs : List Visit} {p : Progress} {f : Failure}
    (h : (performAll s vs p).failure = some f) (ws : List Visit) :
    performAll s (vs ++ ws) p = performAll s vs p := by
  induction vs generalizing p with
  | nil => cases h
  | cons v vs ih =>
    rw [List.cons_append]
    rcases hv : v.perform s p with ⟨e | out, q⟩
    · rw [performAll_cons_of_error hv, performAll_cons_of_error hv]
    · rw [performAll_cons_of_ok hv] at h
      rw [performAll_cons_of_ok hv, performAll_cons_of_ok hv, ih h]

theorem performAll_append_of_none {s : Surroundings} {vs : List Visit} {p : Progress}
    (h : (performAll s vs p).failure = none) (ws : List Visit) :
    performAll s (vs ++ ws) p =
      { performAll s ws (performAll s vs p).progress with
        written := (performAll s vs p).written ++ (performAll s ws (performAll s vs p).progress).written } := by
  induction vs generalizing p with
  | nil => rfl
  | cons v vs ih =>
    rw [List.cons_append]
    rcases hv : v.perform s p with ⟨e | out, q⟩
    · rw [performAll_cons_of_error hv] at h
      cases h
    · rw [performAll_cons_of_ok hv] at h
      rw [performAll_cons_of_ok hv, performAll_cons_of_ok hv, ih h, List.append_assoc]

/-! ## The walk carries out its visits -/

mutual

/-- The functions of a statement, at any depth, in the order of the text. -/
def Source.Statement.functions : Statement → List Function
  | .simple .. => []
  | .clause _ _ body => body.functions
  | .ofFunction prelude head body => { prelude, head, body } :: body.functions
  | .ofClass _ _ body => body.functions

/-- The functions of a suite. -/
def Source.Suite.functions : Suite → List Function
  | .inline .. => []
  | .block _ _ body _ => functionsOf body

/-- The functions of some statements. -/
def functionsOf : List Statement → List Function
  | [] => []
  | st :: ss => st.functions ++ functionsOf ss

end

theorem functionsOf_append (ss ts : List Statement) : functionsOf (ss ++ ts) = functionsOf ss ++ functionsOf ts := by
  induction ss with
  | nil => rfl
  | cons st ss ih => rw [List.cons_append, functionsOf, ih, functionsOf, List.append_assoc]

theorem functionsAmong_sublist (ss : List Statement) : (functionsAmong ss).Sublist (functionsOf ss) := by
  induction ss with
  | nil => exact .slnil
  | cons st ss ih =>
    have hcons : functionsAmong (st :: ss) = st.function?.toList ++ functionsAmong ss := by
      rw [functionsAmong, List.filterMap_cons]
      cases st.function? <;> rfl
    have hfirst : st.function?.toList.Sublist st.functions := by
      cases st with
      | ofFunction prelude head body => exact (List.nil_sublist body.functions).cons_cons _
      | _ => exact List.nil_sublist _
    rw [hcons, functionsOf]
    exact hfirst.append ih

/-- The computation carries out the visits: it ends as they do, and its result is related to the functions that are
written meanwhile. -/
def Performs {α : Type} (s : Surroundings) (vs : List Visit) (R : α → List Function → Prop) (x : Expand α) : Prop :=
  ∀ p, failureOf? (x p).1 = (performAll s vs p).failure ∧ (x p).2 = (performAll s vs p).progress ∧
    ∀ a, (x p).1 = .ok a → R a (functionsAmong (performAll s vs p).written)

theorem Performs.pure {α : Type} {s : Surroundings} {R : α → List Function → Prop} {a : α} (h : R a []) :
    Performs s [] R (pure a) := by
  intro p
  refine ⟨rfl, rfl, fun b hb => ?_⟩
  cases hb
  exact h

/-- One computation after the other. -/
theorem Performs.bind {α β : Type} {s : Surroundings} {vs ws : List Visit} {R : α → List Function → Prop}
    {R' : β → List Function → Prop} {x : Expand α} {f : α → Expand β} (hx : Performs s vs R x)
    (hf : ∀ a fs, R a fs → Performs s ws (fun b gs => R' b (fs ++ gs)) (f a)) : Performs s (vs ++ ws) R' (x >>= f) := by
  intro p
  obtain ⟨hfail, hprogress, hresult⟩ := hx p
  rw [Computation.bind_apply]
  rcases hp : x p with ⟨e | a, q⟩
  · rw [hp] at hfail hprogress
    rw [performAll_append_of_failure hfail.symm]
    exact ⟨hfail, hprogress, fun b hb => nomatch hb⟩
  · rw [hp] at hfail hprogress hresult
    obtain rfl : q = (performAll s vs p).progress := hprogress
    obtain ⟨hfail', hprogress', hresult'⟩ := hf a _ (hresult a rfl) (performAll s vs p).progress
    rw [performAll_append_of_none hfail.symm]
    refine ⟨hfail', hprogress', fun b hb => ?_⟩
    rw [functionsAmong_append]
    exact hresult' b hb

/-- A computation whose result is put into something else. -/
theorem Performs.map {α β : Type} {s : Surroundings} {vs : List Visit} {R : α → List Function → Prop}
    {R' : β → List Function → Prop} {x : Expand α} {g : α → β} (hx : Performs s vs R x)
    (hg : ∀ a fs, R a fs → R' (g a) fs) : Performs s vs R' (x >>= fun a => Pure.pure (g a)) := by
  have h : Performs s (vs ++ []) R' (x >>= fun a => Pure.pure (g a)) := hx.bind fun a fs hr =>
    Performs.pure (by rw [List.append_nil]; exact hg a fs hr)
  rwa [List.append_nil] at h

theorem Performs.enter {α : Type} {s : Surroundings} {v : Visit} {vs : List Visit} {R : α → List Function → Prop}
    {x : Expand α} (hv : ∀ p, v.perform s p = (.ok [], p)) (h : Performs s vs R x) : Performs s (v :: vs) R x := by
  intro p
  rw [performAll_cons_of_ok (hv p)]
  exact h p

theorem Performs.fail {α : Type} {s : Surroundings} {v : Visit} {vs : List Visit} {R : α → List Function → Prop}
    {f : Failure} {x : Expand α} (hv : ∀ p, v.perform s p = (.error f, p)) (hx : ∀ p, x p = (.error f, p)) :
    Performs s (v :: vs) R x := by
  intro p
  rw [performAll_cons_of_error (hv p), hx p]
  exact ⟨rfl, rfl, fun a ha => nomatch ha⟩

/-- The functions stand in the result of a walk in their order.  Inside a marked class nothing is written, and the
result is thrown away. -/
def Shows (inside : Bool) (result written : List Function) : Prop :=
  written.Sublist (if inside then [] else result)

theorem Shows.mono {inside : Bool} {fs gs written : List Function} (h : Shows inside fs written) (hsub : fs.Sublist gs) :
    Shows inside gs written := by
  cases inside with
  | true => exact h
  | false => exact h.trans hsub

theorem Shows.append {inside : Bool} {fs gs written more : List Function} (h : Shows inside fs written)
    (h' : Shows inside gs more) : Shows inside (fs ++ gs) (written ++ more) := by
  cases inside with
  | true => exact List.Sublist.append h h'
  | false => exact List.Sublist.append h h'

theorem performs_expandClass {s : Surroundings} {c : Class} {d : Decorator} {rest : List Decorator}
    (hd : entryDecorators s.settings.aliases c.prelude.decorators = d :: rest) :
    Performs s [.leaveClass c] (fun out => Shows false (functionsOf out))
      (expandClass s (entryMarker s.settings.aliases d) d c) := by
  intro p
  have hperform : (Visit.leaveClass c).perform s p = expandClass s (entryMarker s.settings.aliases d) d c p := by
    rw [Visit.perform, hd]
  rcases hc : expandClass s (entryMarker s.settings.aliases d) d c p with ⟨f | out, q⟩
  · rw [hc] at hperform
    rw [performAll_cons_of_error hperform]
    exact ⟨rfl, rfl, fun a ha => nomatch ha⟩
  · rw [hc] at hperform
    rw [performAll_cons_of_ok hperform]
    refine ⟨rfl, rfl, fun a ha => ?_⟩
    cases ha
    rw [performAll, List.append_nil]
    exact functionsAmong_sublist out

/-- A check with a verdict on a visit: the walk goes on, or it ends with what the visit is blamed with. -/
theorem Performs.checking {α β : Type} {s : Surroundings} {v : Visit} {vs : List Visit} {R : β → List Function → Prop}
    {definition : Option Extent} {r : Except Failure α} {f : α → Expand β}
    (hv : ∀ p, v.perform s p = ((s.checking definition r >>= fun _ => Pure.pure []) p))
    (hf : ∀ a, r = .ok a → Performs s vs R (f a)) : Performs s (v :: vs) R (s.checking definition r >>= f) := by
  cases r with
  | ok a => exact Performs.enter hv (hf a rfl)
  | error e => exact Performs.fail hv fun _ => rfl

theorem perform_enterClass (s : Surroundings) (around : List Class) (c : Class) (p : Progress) :
    (Visit.enterClass around c).perform s p =
      ((s.checking c.extent? (enterClass s.settings.aliases (around.any (Class.isMarked s.settings.aliases)) c) >>=
        fun _ => Pure.pure []) p) := by
  rw [enterClass_eq]
  rw [Visit.perform, Visit.failure?]
  cases entryDecorators s.settings.aliases c.prelude.decorators with
  | nil => rfl
  | cons d rest =>
    cases rest with
    | nil => cases around.any (Class.isMarked s.settings.aliases) <;> rfl
    | cons second rest => rfl

theorem perform_enterFunction (s : Surroundings) (f : Function) (p : Progress) :
    (Visit.enterFunction f).perform s p =
      ((s.checking f.extent? (enterFunction s.settings.aliases f) >>= fun _ => Pure.pure []) p) := by
  have hends := Ends.enterFunction s f p
  rw [Visit.perform, ← hends]
  cases enterFunction s.settings.aliases f <;> rfl

mutual

/-- The walk through a statement carries out its visits and nothing else. -/
theorem expandStatement_performs (s : Surroundings) (around : List Class) (st : Statement) :
    Performs s (st.visits s.settings.aliases around)
      (fun out => Shows (around.any (Class.isMarked s.settings.aliases)) (functionsOf out))
      (expandStatement s (around.any (Class.isMarked s.settings.aliases)) st) := by
  match st with
  | .simple lead body stop => exact Performs.pure (List.nil_sublist _)
  | .clause lead head body =>
    refine (expandSuite_performs s around body).map fun body' fs h => h.mono ?_
    exact List.sublist_append_left _ _
  | .ofFunction prelude head body =>
    rw [Statement.visits, expandStatement]
    refine Performs.checking (perform_enterFunction s { prelude, head, body }) fun _ _ => ?_
    refine (expandSuite_performs s around body).map fun body' fs h => h.mono ?_
    exact (List.sublist_append_left _ _).cons _
  | .ofClass prelude head body =>
    let c : Class := { prelude, head, body }
    have hbody := expandSuite_performs s (c :: around) body
    have hmarked := Class.isMarked_iff s.settings.aliases c
    rw [List.any_cons] at hbody
    rw [Statement.visits, expandStatement]
    refine Performs.checking (perform_enterClass s around c) fun found hfound => ?_
    rcases enterClass_eq_ok hfound with ⟨hd, rfl⟩ | ⟨d, hd, hinside, rfl⟩
    · have hc : c.isMarked s.settings.aliases = false := by
        rw [Bool.eq_false_iff, Ne, hmarked]
        exact not_not_intro hd
      rw [hc, Bool.false_or] at hbody
      show Performs s (_ ++ if c.isMarked s.settings.aliases then _ else _) _ _
      rw [hc, if_neg (by decide), List.append_nil]
      refine hbody.map fun body' fs h => h.mono ?_
      exact List.sublist_append_left _ _
    · have hc : c.isMarked s.settings.aliases = true := by
        rw [hmarked]
        exact fun h => List.cons_ne_nil d [] (hd.symm.trans h)
      rw [hc, Bool.true_or] at hbody
      show Performs s (_ ++ if c.isMarked s.settings.aliases then _ else _) _ _
      rw [hc, if_pos rfl, hinside]
      refine hbody.bind fun body' fs hfs => ?_
      obtain rfl : fs = [] := List.sublist_nil.mp hfs
      exact performs_expandClass hd

theorem expandSuite_performs (s : Surroundings) (around : List Class) (b : Suite) :
    Performs s (b.visits s.settings.aliases around)
      (fun b' => Shows (around.any (Class.isMarked s.settings.aliases)) b'.functions)
      (expandSuite s (around.any (Class.isMarked s.settings.aliases)) b) := by
  match b with
  | .inline body stop => exact Performs.pure (List.nil_sublist _)
  | .block opening indent body footer => exact (expandStatements_performs s around body).map fun body' fs h => h

theorem expandStatements_performs (s : Surroundings) (around : List Class) (ss : List Statement) :
    Performs s (visitsOf s.settings.aliases around ss)
      (fun out => Shows (around.any (Class.isMarked s.settings.aliases)) (functionsOf out))
      (expandStatements s (around.any (Class.isMarked s.settings.aliases)) ss) := by
  match ss with
  | [] => exact Performs.pure (List.nil_sublist _)
  | st :: ss =>
    rw [visitsOf, expandStatements]
    refine (expandStatement_performs s around st).bind fun first fs hfirst => ?_
    refine (expandStatements_performs s around ss).map fun rest gs hrest => ?_
    rw [functionsOf_append]
    exact hfirst.append hrest

end

/-! ## What visits use of the counter -/

theorem failureOf?_blaming (o : Option Failure) (p : Progress) : failureOf? (blaming o p).1 = o := by
  cases o <;> rfl

theorem blaming_progress (o : Option Failure) (p : Progress) : (blaming o p).2 = p := by
  cases o <;> rfl

theorem blaming_written {o : Option Failure} {p : Progress} {out : List Statement} (h : (blaming o p).1 = .ok out) :
    out = [] := by
  cases o with
  | none => exact (Except.ok.inj h).symm
  | some f => cases h

theorem failureOf?_perform (s : Surroundings) (v : Visit) (p : Progress) :
    failureOf? (v.perform s p).1 = v.failure? s := by
  cases v with
  | enterClass around c => exact failureOf?_blaming _ p
  | enterFunction f => exact failureOf?_blaming _ p
  | leaveClass c =>
    rw [Visit.perform, Visit.failure?]
    cases entryDecorators s.settings.aliases c.prelude.decorators with
    | nil => rfl
    | cons d rest => exact Ends.expandClass s (entryMarker s.settings.aliases d) d c p

theorem entryMarker_cases (aliases : List String) (d : Decorator) :
    entryMarker aliases d = .interface ∨ entryMarker aliases d = .implementation := by
  unfold entryMarker
  cases Marker.interface.marks aliases d with
  | true => exact .inl rfl
  | false => exact .inr rfl

/-- The labels of the functions that a visit writes. -/
def Visit.labels (s : Surroundings) (v : Visit) : List Label :=
  (v.completed? s).toList.flatMap (Implementation.labels s.settings.testPrefix)

theorem labels_interface {s : Surroundings} {c : Class} {d : Decorator} {rest : List Decorator}
    (hd : entryDecorators s.settings.aliases c.prelude.decorators = d :: rest)
    (hm : entryMarker s.settings.aliases d = .interface) : (Visit.leaveClass c).labels s = [] := by
  rw [Visit.labels, Visit.completed?, hd]
  dsimp only
  rw [hm]
  rfl

theorem labels_implementation {s : Surroundings} {c : Class} {d : Decorator} {rest : List Decorator}
    {i : Implementation} (hd : entryDecorators s.settings.aliases c.prelude.decorators = d :: rest)
    (hm : entryMarker s.settings.aliases d = .implementation)
    (hread : Implementation.read s.settings.aliases s.typeVariables d.expression.arguments
      (c.unmarked s.settings.aliases).statement = .ok i) :
    (Visit.leaveClass c).labels s = i.labels s.settings.testPrefix := by
  rw [Visit.labels, Visit.completed?, hd]
  dsimp only
  rw [if_pos hm, hread]
  exact List.append_nil _

/-- A visit that is carried out numbers its functions on from the counter. -/
theorem perform_eq_ok {s : Surroundings} {v : Visit} {out : List Statement} {p q : Progress}
    (h : v.perform s p = (.ok out, q)) :
    (functionsAmong out).map Function.name = numbered p.counter (v.labels s) ∧
      q.counter = p.counter + (v.labels s).length := by
  have henter : ∀ o, blaming o p = (.ok out, q) → out = [] ∧ q = p := fun o ho =>
    ⟨blaming_written (congrArg Prod.fst ho), (congrArg Prod.snd ho).symm.trans (blaming_progress o p)⟩
  cases v with
  | enterClass around c =>
    obtain ⟨rfl, rfl⟩ := henter _ h
    exact ⟨rfl, rfl⟩
  | enterFunction f =>
    obtain ⟨rfl, rfl⟩ := henter _ h
    exact ⟨rfl, rfl⟩
  | leaveClass c =>
    rw [Visit.perform] at h
    cases hd : entryDecorators s.settings.aliases c.prelude.decorators with
    | nil =>
      rw [hd] at h
      cases h
      rw [Visit.labels, Visit.completed?, hd]
      exact ⟨rfl, rfl⟩
    | cons d rest =>
      rw [hd] at h
      dsimp only at h
      rcases entryMarker_cases s.settings.aliases d with hm | hm
      · rw [hm] at h
        obtain ⟨c', -, rfl, hcounter, -, -⟩ := expandClass_interface_cases h
        rw [labels_interface hd hm]
        exact ⟨rfl, hcounter⟩
      · rw [hm] at h
        obtain ⟨i, hread, rfl, hcounter, -, -⟩ := expandClass_implementation_cases h
        rw [labels_implementation hd hm hread, i.length_labels]
        exact ⟨i.names_expanded _ _, hcounter⟩

theorem checking_bind_eq_error {α β : Type} {s : Surroundings} {definition : Option Extent} {r : Except Failure α}
    {f : α → Expand β} {e : Failure} {p q : Progress} (h : (s.checking definition r >>= f) p = (.error e, q))
    (hf : ∀ a p, ∃ b p', f a p = (.ok b, p')) : q = p := by
  cases r with
  | error e' =>
    cases h
    rfl
  | ok a =>
    obtain ⟨b, p', hb⟩ := hf a p
    cases hb.symm.trans h

/-- A visit that fails leaves the counter alone. -/
theorem perform_eq_error {s : Surroundings} {v : Visit} {f : Failure} {p q : Progress}
    (h : v.perform s p = (.error f, q)) : q = p := by
  cases v with
  | enterClass around c => exact (congrArg Prod.snd h).symm.trans (blaming_progress _ p)
  | enterFunction g => exact (congrArg Prod.snd h).symm.trans (blaming_progress _ p)
  | leaveClass c =>
    rw [Visit.perform] at h
    cases hd : entryDecorators s.settings.aliases c.prelude.decorators with
    | nil =>
      rw [hd] at h
      cases h
    | cons d rest =>
      rw [hd] at h
      dsimp only at h
      rcases entryMarker_cases s.settings.aliases d with hm | hm
      · rw [hm] at h
        exact checking_bind_eq_error h fun a p => ⟨_, _, rfl⟩
      · rw [hm] at h
        exact checking_bind_eq_error h fun a p => ⟨_, _, rfl⟩

/-- The implementations that visits complete: those of the visits before the first bad one. -/
def completedAmong (s : Surroundings) (vs : List Visit) : List Implementation :=
  (vs.takeWhile fun v => (v.failure? s).isNone).filterMap (Visit.completed? s)

theorem completedAmong_cons (s : Surroundings) (v : Visit) (vs : List Visit) :
    completedAmong s (v :: vs) =
      if (v.failure? s).isNone then (v.completed? s).toList ++ completedAmong s vs else [] := by
  rw [completedAmong, List.takeWhile_cons]
  cases (v.failure? s).isNone with
  | false => rfl
  | true =>
    rw [if_pos rfl, if_pos rfl, List.filterMap_cons]
    cases v.completed? s <;> rfl

/-- Visits that are carried out one after the other number the functions of the implementations they complete on from
the counter, and leave behind the number after the last of them. -/
theorem performAll_numbers (s : Surroundings) (vs : List Visit) (p : Progress) :
    (functionsAmong (performAll s vs p).written).map Function.name =
        numbered p.counter ((completedAmong s vs).flatMap (Implementation.labels s.settings.testPrefix)) ∧
      (performAll s vs p).progress.counter =
        p.counter + ((completedAmong s vs).flatMap (Implementation.labels s.settings.testPrefix)).length := by
  induction vs generalizing p with
  | nil => exact ⟨rfl, rfl⟩
  | cons v vs ih =>
    have hfailure := failureOf?_perform s v p
    rw [completedAmong_cons]
    rcases hv : v.perform s p with ⟨f | out, q⟩
    · rw [hv] at hfailure
      rw [performAll_cons_of_error hv, ← hfailure]
      exact ⟨rfl, congrArg Progress.counter (perform_eq_error hv)⟩
    · rw [hv] at hfailure
      obtain ⟨hnames, hcounter⟩ := perform_eq_ok hv
      obtain ⟨hnames', hcounter'⟩ := ih q
      rw [performAll_cons_of_ok hv, ← hfailure]
      simp only [failureOf?, Option.isNone_none, if_true, List.flatMap_append, functionsAmong_append, List.map_append,
        numbered_append, List.length_append]
      rw [hnames, hnames', hcounter', hcounter]
      exact ⟨rfl, Nat.add_assoc _ _ _⟩

/-! ## A process -/

/-- An expansion: of a text, of a module, or of one class under the marker of an implementation. -/
inductive Job where
  | text (settings : Settings) (filename source : String)
  | module (settings : Settings) (filename : String) (m : Module)
  | implementation (settings : Settings) (typeVariables : List String) (args : List SyntaxTree) (item : Statement)

/-- The visits of a module, carried out from a value of the counter on. -/
def Source.Module.perform (settings : Settings) (filename : String) (m : Module) (n : Nat) : Performance :=
  performAll (m.surroundings settings filename) (m.visits settings.aliases) { counter := n }

/-- The implementations of a module that are completed before its first bad visit. -/
def Source.Module.completed (settings : Settings) (filename : String) (m : Module) : List Implementation :=
  completedAmong (m.surroundings settings filename) (m.visits settings.aliases)

namespace Job

/-- What the names of generated functions start with. -/
def discovery : Job → String
  | text settings .. | module settings .. | implementation settings .. => settings.testPrefix

/-- The number of the next function after an expansion, if it is `n` before. -/
def counterAfter (n : Nat) : Job → Nat
  | text settings filename source => ((expandText settings filename source).run { counter := n }).2.counter
  | module settings filename m => ((expandModule settings filename m).run { counter := n }).2.counter
  | implementation settings typeVariables args item =>
    match Implementation.read settings.aliases typeVariables args item with
    | .ok i => n + i.instantiations.length
    | .error _ => n

/-- The statements that an expansion gives. -/
def result (n : Nat) : Job → Except Failure (List Statement)
  | text settings filename source =>
    match Module.parse? source with
    | some m => ((expandModule settings filename m).run { counter := n }).1.map Module.body
    | none => .error (invalidSyntax filename)
  | module settings filename m => ((expandModule settings filename m).run { counter := n }).1.map Module.body
  | implementation settings typeVariables args item =>
    (Implementation.read settings.aliases typeVariables args item).map fun i => i.expanded settings.testPrefix n

/-- What is written for the classes that are completed, whether or not the expansion fails later. -/
def written (n : Nat) : Job → List Statement
  | text settings filename source =>
    match Module.parse? source with
    | some m => (m.perform settings filename n).written
    | none => []
  | module settings filename m => (m.perform settings filename n).written
  | implementation settings typeVariables args item =>
    match Implementation.read settings.aliases typeVariables args item with
    | .ok i => i.expanded settings.testPrefix n
    | .error _ => []

/-- The implementations that are completed, in the order in which their classes are left. -/
def completed : Job → List Implementation
  | text settings filename source =>
    match Module.parse? source with
    | some m => m.completed settings filename
    | none => []
  | module settings filename m => m.completed settings filename
  | implementation settings typeVariables args item =>
    (Implementation.read settings.aliases typeVariables args item).toOption.toList

/-- The names of the functions that are generated. -/
def names (n : Nat) (job : Job) : List String :=
  (functionsAmong (job.written n)).map Function.name

def labels (job : Job) : List Label :=
  job.completed.flatMap (Implementation.labels job.discovery)

/-- What is known of every expansion. -/
structure Numbers (n : Nat) (job : Job) : Prop where
  names : job.names n = numbered n job.labels
  counter : job.counterAfter n = n + job.labels.length
  result : ∀ out, job.result n = .ok out → (job.names n).Sublist ((functionsOf out).map Function.name)

theorem module_numbers (settings : Settings) (filename : String) (m : Module) (n : Nat) :
    Numbers n (module settings filename m) := by
  obtain ⟨hnames, hcounter⟩ :=
    performAll_numbers (m.surroundings settings filename) (m.visits settings.aliases) { counter := n }
  have hwalk := expandStatements_performs (m.surroundings settings filename) [] m.body
  have hperforms : Performs (m.surroundings settings filename) (m.visits settings.aliases)
      (fun m' => Shows false (functionsOf m'.body)) (expandModule settings filename m) := hwalk.map fun _ _ h => h
  obtain ⟨-, hprogress, hresult⟩ := hperforms { counter := n }
  refine ⟨hnames, (congrArg Progress.counter hprogress).trans hcounter, fun out hout => ?_⟩
  obtain ⟨m', hm', rfl⟩ : ∃ m', (expandModule settings filename m { counter := n }).1 = .ok m' ∧ m'.body = out := by
    rw [Job.result, ExceptT.run] at hout
    cases hm : (expandModule settings filename m { counter := n }).1 with
    | error e =>
      rw [hm] at hout
      cases hout
    | ok m' =>
      rw [hm] at hout
      exact ⟨m', rfl, Except.ok.inj hout⟩
  exact (hresult m' hm').map _

theorem implementation_numbers (settings : Settings) (typeVariables : List String) (args : List SyntaxTree)
    (item : Statement) (n : Nat) : Numbers n (implementation settings typeVariables args item) := by
  cases hread : Implementation.read settings.aliases typeVariables args item with
  | ok i =>
    have hwritten : (implementation settings typeVariables args item).written n = i.expanded settings.testPrefix n := by
      rw [written, hread]
    have hlabels : (implementation settings typeVariables args item).labels = i.labels settings.testPrefix := by
      rw [labels, completed, hread]
      exact List.append_nil _
    refine ⟨?_, ?_, fun out hout => ?_⟩
    · rw [names, hwritten, hlabels]
      exact i.names_expanded settings.testPrefix n
    · rw [counterAfter, hread, hlabels, i.length_labels]
    · rw [Job.result, hread] at hout
      cases hout
      rw [names, hwritten]
      exact (functionsAmong_sublist _).map _
  | error e =>
    refine ⟨?_, ?_, fun out hout => ?_⟩
    · rw [names, written, hread, labels, completed, hread]
      rfl
    · rw [counterAfter, hread, labels, completed, hread]
      rfl
    · rw [Job.result, hread] at hout
      cases hout

/-- The expansion of a text is the expansion of its module, rendered. -/
theorem counterAfter_text {source : String} {m : Module} (hparse : Module.parse? source = some m) (settings : Settings)
    (filename : String) (n : Nat) :
    (text settings filename source).counterAfter n = (module settings filename m).counterAfter n := by
  rw [counterAfter, counterAfter, expandText, hparse]
  show ((expandModule settings filename m >>= fun m' => pure m'.render) { counter := n }).2.counter = _
  rw [Computation.bind_apply, ExceptT.run]
  rcases expandModule settings filename m { counter := n } with ⟨e | m', q⟩
  · rfl
  · rfl

theorem numbers (n : Nat) (job : Job) : Numbers n job := by
  cases job with
  | module settings filename m => exact module_numbers settings filename m n
  | implementation settings typeVariables args item => exact implementation_numbers settings typeVariables args item n
  | text settings filename source =>
    cases hparse : Module.parse? source with
    | none =>
      refine ⟨?_, ?_, fun out hout => ?_⟩
      · rw [names, written, hparse, labels, completed, hparse]
        rfl
      · rw [counterAfter, expandText, hparse, labels, completed, hparse]
        rfl
      · rw [Job.result, hparse] at hout
        cases hout
    | some m =>
      obtain ⟨hnames, hcounter, hresult⟩ := module_numbers settings filename m n
      have hnames' : (text settings filename source).names n = (module settings filename m).names n := by
        rw [names, written, hparse]
        rfl
      have hlabels : (text settings filename source).labels = (module settings filename m).labels := by
        rw [labels, completed, hparse]
        rfl
      refine ⟨?_, ?_, fun out hout => ?_⟩
      · rw [hnames', hlabels, hnames]
      · rw [counterAfter_text hparse, hlabels, hcounter]
      · rw [Job.result, hparse] at hout
        rw [hnames']
        exact hresult out hout

theorem length_labels (job : Job) :
    job.labels.length = (job.completed.flatMap Implementation.instantiations).length := by
  rw [labels, List.length_flatMap, List.length_flatMap]
  simp only [Implementation.length_labels]

end Job

/-- The names of all functions that a process generates, if the next number is `n`. -/
def generatedNames (n : Nat) : List Job → List String
  | [] => []
  | job :: jobs => job.names n ++ generatedNames (job.counterAfter n) jobs

/-- The number of the next function after some expansions. -/
def counterAfterAll (n : Nat) (jobs : List Job) : Nat :=
  jobs.foldl Job.counterAfter n

theorem generatedNames_eq (n : Nat) (jobs : List Job) :
    generatedNames n jobs = numbered n (jobs.flatMap Job.labels) := by
  induction jobs generalizing n with
  | nil => rfl
  | cons job jobs ih =>
    obtain ⟨hnames, hcounter, -⟩ := job.numbers n
    rw [generatedNames, ih, hnames, hcounter, List.flatMap_cons, numbered_append]

theorem counterAfterAll_eq (n : Nat) (jobs : List Job) :
    counterAfterAll n jobs = n + (generatedNames n jobs).length := by
  induction jobs generalizing n with
  | nil => rfl
  | cons job jobs ih =>
    obtain ⟨hnames, hcounter, -⟩ := job.numbers n
    rw [generatedNames, List.length_append, hnames, length_numbered, ← Nat.add_assoc, ← hcounter]
    exact ih (job.counterAfter n)

/-- Over a whole process the generated names differ and are numbered from zero in the order in which classes are left.
Each expansion, also one that fails, takes one number for each instantiation of the implementations it completes and no
other, and the functions it generates stand in what it gives. -/
theorem generatedNames_distinct (jobs : List Job) :
    (generatedNames 0 jobs).Nodup ∧
      (generatedNames 0 jobs).map Naming.numberOf = List.range (generatedNames 0 jobs).length ∧
      ∀ before job after, jobs = before ++ job :: after →
        ∃ n, counterAfterAll 0 before = n ∧ (generatedNames 0 before).length = n ∧
          job.names n = numbered n (job.completed.flatMap (Implementation.labels job.discovery)) ∧
          job.counterAfter n = n + (job.completed.flatMap Implementation.instantiations).length ∧
          ∀ out, job.result n = .ok out → (job.names n).Sublist ((functionsOf out).map Function.name) := by
  refine ⟨?_, ?_, fun before job after _ => ?_⟩
  · rw [generatedNames_eq]
    exact nodup_numbered 0 _
  · rw [generatedNames_eq, numberOf_numbered, length_numbered, List.range_eq_range']
  · obtain ⟨hnames, hcounter, hresult⟩ := job.numbers (counterAfterAll 0 before)
    refine ⟨_, rfl, ?_, hnames, ?_, hresult⟩
    · rw [counterAfterAll_eq, Nat.zero_add]
    · rw [hcounter, job.length_labels]

/-- An implementation, and after it one without an interface, which cannot be expanded. -/
def brokenModule : Module :=
  { body := [(decoratedClass "test_impl" "Square" ["Shape"] []).statement,
      (decoratedClass "test_impl" "Odd" [] []).statement] }

def brokenJob : Job := .module {} "<string>" brokenModule

/-- The first class of the broken module, by itself. -/
def squareJob : Job :=
  .implementation {} [] [] ((decoratedClass "test_impl" "Square" ["Shape"] []).unmarked Marker.defaultAliases).statement

/-- The class that is completed before the failure has taken its number. -/
theorem generatedNames_distinct_after_failure :
    (∃ f p, (expandModule {} "<string>" brokenModule).run {} = (.error f, p)) ∧
      generatedNames 0 [brokenJob, squareJob] = ["test_trait_impl_Shape_0", "test_trait_impl_Shape_1"] ∧
      (generatedNames 0 [brokenJob, squareJob]).Nodup ∧
      squareJob.counterAfter 1 = 1 + (squareJob.completed.flatMap Implementation.instantiations).length ∧
      ∀ out, squareJob.result 1 = .ok out → (squareJob.names 1).Sublist ((functionsOf out).map Function.name) := by
  obtain ⟨hnodup, -, hjobs⟩ := generatedNames_distinct [brokenJob, squareJob]
  obtain ⟨n, hn, -, -, hcounter, hresult⟩ := hjobs [brokenJob] squareJob [] rfl
  obtain rfl : n = 1 := hn.symm
  exact ⟨⟨_, _, rfl⟩, by decide +kernel, hnodup, hcounter, hresult⟩

end Conformance
