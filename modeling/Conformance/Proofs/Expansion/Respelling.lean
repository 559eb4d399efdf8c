import Conformance.Proofs.Expansion.Idempotence
import Conformance.Proofs.Expansion.Places

/-!
# Respelled markers

A marker can be written by its word alone or after one of the configured module names.  `Module.Respells` relates two
modules that differ in such spellings, and in the places of their tokens, where the expansion takes the marker off:

* the entry marker of a definition;
* the markers of an associated test, which is a method with a bare `test` right inside an interface;
* `run_inline` on an implementation.

Everywhere else the modules are the same but for places.
-/

namespace Conformance

open Source

/-! ## Decorators -/

/-- The decorators are the same but for places, or both spell one of the given markers, with the same arguments or
both without a call. -/
def Source.Decorator.Respells (aliases : List String) (consumed : List Marker) (d d' : Decorator) : Prop :=
  d.unplaced = d'.unplaced ∨
    ∃ m ∈ consumed, m.marks aliases d = true ∧ m.marks aliases d' = true ∧
      d.expression.isCall = d'.expression.isCall ∧
      d.expression.arguments.map SyntaxTree.unplaced = d'.expression.arguments.map SyntaxTree.unplaced

/-- A dotted name is that of what is called, since a call has none. -/
theorem Source.SyntaxTree.dotted?_callee {t : SyntaxTree} {name : String} (h : t.dotted? = some name) :
    t.callee.dotted? = some name := by
  unfold callee
  split
  · rename_i f rest hcore
    rw [dotted?, ← segments?_core, hcore] at h
    cases h
  · exact h

theorem Marker.mem_all (m : Marker) : m ∈ Marker.all := by
  cases m <;> decide

/-- A marker ends in its word, so none has a name that ends in no such word. -/
theorem Marker.not_named {aliases : List String} {m : Marker} {d : Decorator} (h : m.marks aliases d = true)
    {names : List String} (hnames : ∀ name ∈ names, ∀ m ∈ Marker.all, finalSegment name ≠ m.word.toList)
    {name : String} (hname : d.expression.dotted? = some name) : names.contains name = false := by
  obtain ⟨name', hname', hspelling⟩ := marks_iff.mp h
  obtain rfl : name = name' := Option.some.inj ((SyntaxTree.dotted?_callee hname).symm.trans hname')
  rw [List.contains_eq_mem, decide_eq_false_iff_not]
  exact fun hmem => hnames name hmem m m.mem_all (finalSegment_of_mem_spellings hspelling)

theorem Marker.not_marksAbstract {aliases : List String} {m : Marker} {d : Decorator} (h : m.marks aliases d = true) :
    marksAbstract d = false := by
  unfold marksAbstract
  cases hname : d.expression.dotted? with
  | none => rfl
  | some name => exact not_named h (by decide +kernel) hname

theorem Marker.not_marksBinding {aliases : List String} {m : Marker} {d : Decorator} (h : m.marks aliases d = true) :
    marksBinding d = false := by
  unfold marksBinding
  cases hname : d.expression.dotted? with
  | none => rfl
  | some name => exact not_named h (by decide +kernel) hname

namespace Source.Decorator.Respells

variable {aliases : List String} {consumed consumed' : List Marker} {d d' : Decorator}

theorem marks_eq (h : d.Respells aliases consumed d') (m : Marker) : m.marks aliases d = m.marks aliases d' := by
  rcases h with h | ⟨m', -, hd, hd', -⟩
  · rw [← marks_unplaced, h, marks_unplaced]
  · rw [Bool.eq_iff_iff]
    constructor
    · intro hm
      rwa [Marker.marks_unique hm hd]
    · intro hm
      rwa [Marker.marks_unique hm hd']

theorem isCall_eq (h : d.Respells aliases consumed d') : d.expression.isCall = d'.expression.isCall := by
  rcases h with h | ⟨-, -, -, -, hcall, -⟩
  · have hexpression : d.expression.unplaced = d'.expression.unplaced := congrArg Decorator.expression h
    rw [← SyntaxTree.isCall_unplaced, hexpression, SyntaxTree.isCall_unplaced]
  · exact hcall

theorem arguments_eq (h : d.Respells aliases consumed d') :
    d.expression.arguments.map SyntaxTree.unplaced = d'.expression.arguments.map SyntaxTree.unplaced := by
  rcases h with h | ⟨-, -, -, -, -, harguments⟩
  · have hexpression : d.expression.unplaced = d'.expression.unplaced := congrArg Decorator.expression h
    rw [← SyntaxTree.arguments_unplaced, hexpression, SyntaxTree.arguments_unplaced]
  · exact harguments

theorem marksBare_eq (h : d.Respells aliases consumed d') (m : Marker) :
    m.marksBare aliases d = m.marksBare aliases d' := by
  rw [Marker.marksBare, Marker.marksBare, h.marks_eq, h.isCall_eq]

theorem isEntry_eq (h : d.Respells aliases consumed d') : isEntry aliases d = isEntry aliases d' := by
  simp only [isEntry, h.marks_eq]

theorem entryMarker_eq (h : d.Respells aliases consumed d') : entryMarker aliases d = entryMarker aliases d' := by
  simp only [entryMarker, h.marks_eq]

theorem marksAbstract_eq (h : d.Respells aliases consumed d') : marksAbstract d = marksAbstract d' := by
  rcases h with h | ⟨m, -, hd, hd', -⟩
  · rw [← marksAbstract_unplaced, h, marksAbstract_unplaced]
  · rw [Marker.not_marksAbstract hd, Marker.not_marksAbstract hd']

theorem marksBinding_eq (h : d.Respells aliases consumed d') : marksBinding d = marksBinding d' := by
  rcases h with h | ⟨m, -, hd, hd', -⟩
  · rw [← marksBinding_unplaced, h, marksBinding_unplaced]
  · rw [Marker.not_marksBinding hd, Marker.not_marksBinding hd']

/-- A marker that a decorator is not cannot be respelled there. -/
theorem narrow (h : d.Respells aliases consumed d')
    (hnot : ∀ m ∈ consumed, m ∈ consumed' ∨ m.marks aliases d = false) : d.Respells aliases consumed' d' := by
  rcases h with h | ⟨m, hm, hd, hrest⟩
  · exact .inl h
  · rcases hnot m hm with hm | hfalse
    · exact .inr ⟨m, hm, hd, hrest⟩
    · rw [hd] at hfalse
      cases hfalse

theorem unplaced_eq (h : d.Respells aliases [] d') : d.unplaced = d'.unplaced := by
  rcases h with h | ⟨m, hm, -⟩
  · exact h
  · cases hm

end Source.Decorator.Respells

/-! ## Spellings -/

/-- A marker by its word, or after a module name if one is given; called if there are arguments. -/
def Marker.written (through : Option String) (arguments : Option (List SyntaxTree)) (m : Marker) : Decorator :=
  let name := match through with
    | none => SyntaxTree.ofName m.word
    | some a => (SyntaxTree.ofName a).dot m.word
  { sign := { kind := .operator, text := "@" }
    expression := match arguments with
      | none => name
      | some args => name.apply args }

theorem Marker.marks_written {aliases : List String} {through : Option String} (h : ∀ a ∈ through, a ∈ aliases)
    (arguments : Option (List SyntaxTree)) (m : Marker) : m.marks aliases (m.written through arguments) = true := by
  rw [marks_iff]
  cases through with
  | none =>
    refine ⟨m.word, ?_, List.mem_cons_self⟩
    cases arguments <;> rfl
  | some a =>
    refine ⟨a ++ "." ++ m.word, ?_, List.mem_cons_of_mem _ (List.mem_map_of_mem (h a rfl))⟩
    have hjoin : ".".intercalate [a, m.word] = a ++ "." ++ m.word := rfl
    rw [← hjoin]
    cases arguments <;> rfl

/-- Any two accepted spellings of a marker that is consumed are respellings, with the same arguments or without. -/
theorem Marker.written_respells {aliases : List String} {consumed : List Marker} {m : Marker} (hm : m ∈ consumed)
    {through through' : Option String} (h : ∀ a ∈ through, a ∈ aliases) (h' : ∀ a ∈ through', a ∈ aliases)
    (arguments : Option (List SyntaxTree)) :
    (m.written through arguments).Respells aliases consumed (m.written through' arguments) := by
  refine .inr ⟨m, hm, marks_written h arguments m, marks_written h' arguments m, ?_, ?_⟩
  · cases arguments <;> cases through <;> cases through' <;> rfl
  · cases arguments <;> cases through <;> cases through' <;> rfl

/-! ## Lists of decorators -/

section

variable {α : Type} {R : α → α → Prop} {xs ys : List α} {f : α → Bool}

theorem any_eq_of_forall₂ (h : List.Forall₂ R xs ys) (hf : ∀ x y, R x y → f x = f y) : xs.any f = ys.any f := by
  induction h with
  | nil => rfl
  | cons hxy _ ih => rw [List.any_cons, List.any_cons, hf _ _ hxy, ih]

theorem filter_forall₂ (h : List.Forall₂ R xs ys) (hf : ∀ x y, R x y → f x = f y) :
    List.Forall₂ (fun x y => R x y ∧ f x = true) (xs.filter f) (ys.filter f) := by
  induction h with
  | nil => exact .nil
  | @cons x y xs ys hxy _ ih =>
    rw [List.filter_cons, List.filter_cons, ← hf x y hxy]
    by_cases hx : f x = true
    · rw [if_pos hx, if_pos hx]
      exact .cons ⟨hxy, hx⟩ ih
    · rw [if_neg hx, if_neg hx]
      exact ih

end

section

variable {aliases : List String} {consumed consumed' : List Marker} {ds ds' : List Decorator}

theorem entryDecorators_respelled (h : List.Forall₂ (Decorator.Respells aliases consumed) ds ds') :
    List.Forall₂ (Decorator.Respells aliases consumed) (entryDecorators aliases ds) (entryDecorators aliases ds') :=
  (filter_forall₂ h fun _ _ hd => hd.isEntry_eq).imp fun _ _ hd => hd.1

/-- A marker that is taken off is respelled no more in what is left. -/
theorem strip_respelled (h : List.Forall₂ (Decorator.Respells aliases consumed) ds ds') {markers : List Marker}
    (hmarkers : ∀ m ∈ consumed, m ∈ consumed' ∨ m ∈ markers) :
    List.Forall₂ (Decorator.Respells aliases consumed') (Marker.strip aliases markers ds).1
      (Marker.strip aliases markers ds').1 := by
  rw [Marker.strip, Marker.strip, List.partition_eq_filter_filter, List.partition_eq_filter_filter]
  refine (filter_forall₂ h fun d d' hd => ?_).imp ?_
  · simp only [hd.marks_eq]
  · rintro d d' ⟨hd, hkept⟩
    refine hd.narrow fun m hm => (hmarkers m hm).imp_right fun hmem => ?_
    rw [Bool.not_eq_true', List.any_eq_false] at hkept
    exact Bool.eq_false_iff.mpr (hkept m hmem)

/-- As many markers are taken off. -/
theorem strip_removed_respelled (h : List.Forall₂ (Decorator.Respells aliases consumed) ds ds')
    (markers : List Marker) :
    (Marker.strip aliases markers ds).2.isEmpty = (Marker.strip aliases markers ds').2.isEmpty := by
  rw [Marker.strip, Marker.strip, List.partition_eq_filter_filter, List.partition_eq_filter_filter, Bool.eq_iff_iff,
    List.isEmpty_iff_length_eq_zero, List.isEmpty_iff_length_eq_zero]
  refine Eq.congr_left (List.Forall₂.length_eq (filter_forall₂ h fun d d' hd => ?_))
  simp only [Function.comp_apply, hd.marks_eq]

theorem map_unplaced_eq (h : List.Forall₂ (Decorator.Respells aliases []) ds ds') :
    ds.map Decorator.unplaced = ds'.map Decorator.unplaced := by
  induction h with
  | nil => rfl
  | cons hd _ ih => rw [List.map_cons, List.map_cons, hd.unplaced_eq, ih]

/-- Without an entry marker there is none to be respelled. -/
theorem plain_respelled (h : List.Forall₂ (Decorator.Respells aliases consumed) ds ds') (hplain : Plain aliases ds)
    (hmarkers : ∀ m ∈ consumed, m ∈ consumed' ∨ m ∈ entryMarkers) :
    List.Forall₂ (Decorator.Respells aliases consumed') ds ds' := by
  induction h with
  | nil => exact .nil
  | @cons d d' ds ds' hd _ ih =>
    obtain ⟨hfirst, hrest⟩ := List.forall_mem_cons.mp hplain
    refine .cons (hd.narrow fun m hm => (hmarkers m hm).imp_right fun hmem => ?_) (ih hrest)
    exact Bool.eq_false_iff.mpr (List.any_eq_false.mp hfirst m hmem)

end

/-! ## Modules -/

/-- What stands before a head, with decorators that are respelled. -/
structure Source.Prelude.Respells (aliases : List String) (consumed : List Marker) (p p' : Prelude) : Prop where
  lead : p.lead = p'.lead
  gap : p.gap = p'.gap
  decorators : List.Forall₂ (Decorator.Respells aliases consumed) p.decorators p'.decorators

/-- The markers that are taken off an associated test. -/
def testMarkers : List Marker := [.test, .shouldPanic, .requires]

/-- The markers of a function that an expansion consumes; `member` says whether it stands right inside an interface. -/
def consumedOfFunction (aliases : List String) (member : Bool) (ds : List Decorator) : List Marker :=
  entryMarkers ++ if member && ds.any (Marker.test.marksBare aliases) then testMarkers else []

/-- The markers of a class that an expansion consumes. -/
def consumedOfClass (aliases : List String) (ds : List Decorator) : List Marker :=
  entryMarkers ++ if ds.any (Marker.implementation.marks aliases) then [.runInline] else []

mutual

/-- The statements are the same but for places and the spelling of markers that an expansion consumes. -/
inductive Source.Statement.Respells (aliases : List String) : Bool → Statement → Statement → Prop
  | simple {member : Bool} {lead : List Line} {body body' : SyntaxTree} {stop : LineEnd}
      (hbody : body.unplaced = body'.unplaced) :
      Source.Statement.Respells aliases member (.simple lead body stop) (.simple lead body' stop)
  | clause {member : Bool} {lead : List Line} {head head' : SyntaxTree} {body body' : Suite}
      (hhead : head.unplaced = head'.unplaced) (hbody : Source.Suite.Respells aliases false body body') :
      Source.Statement.Respells aliases member (.clause lead head body) (.clause lead head' body')
  | ofFunction {member : Bool} {prelude prelude' : Prelude} {head head' : FunctionHead} {body body' : Suite}
      (hprelude : prelude.Respells aliases (consumedOfFunction aliases member prelude.decorators) prelude')
      (hhead : head.unplaced = head'.unplaced) (hbody : Source.Suite.Respells aliases false body body') :
      Source.Statement.Respells aliases member (.ofFunction prelude head body) (.ofFunction prelude' head' body')
  | ofClass {member : Bool} {prelude prelude' : Prelude} {head head' : ClassHead} {body body' : Suite}
      (hprelude : prelude.Respells aliases (consumedOfClass aliases prelude.decorators) prelude')
      (hhead : head.unplaced = head'.unplaced)
      (hbody : Source.Suite.Respells aliases (prelude.decorators.any (Marker.interface.marks aliases)) body body') :
      Source.Statement.Respells aliases member (.ofClass prelude head body) (.ofClass prelude' head' body')

/-- The suites of heads, respelled. -/
inductive Source.Suite.Respells (aliases : List String) : Bool → Suite → Suite → Prop
  | inline {member : Bool} {body body' : SyntaxTree} {stop : LineEnd} (hbody : body.unplaced = body'.unplaced) :
      Source.Suite.Respells aliases member (.inline body stop) (.inline body' stop)
  | block {member : Bool} {opening : LineEnd} {indent : Option String} {body body' : List Statement}
      {footer : List Line} (hbody : StatementsRespell aliases member body body') :
      Source.Suite.Respells aliases member (.block opening indent body footer) (.block opening indent body' footer)

/-- Statement by statement, respelled. -/
inductive StatementsRespell (aliases : List String) : Bool → List Statement → List Statement → Prop
  | nil {member : Bool} : StatementsRespell aliases member [] []
  | cons {member : Bool} {st st' : Statement} {ss ss' : List Statement}
      (hfirst : Source.Statement.Respells aliases member st st') (hrest : StatementsRespell aliases member ss ss') :
      StatementsRespell aliases member (st :: ss) (st' :: ss')

end

/-- The modules are the same but for places and the spelling of markers that an expansion consumes. -/
structure Source.Module.Respells (aliases : List String) (m m' : Module) : Prop where
  style : m.style = m'.style
  body : StatementsRespell aliases false m.body m'.body
  footer : m.footer = m'.footer
  ended : m.ended = m'.ended

/-! ## What a respelling leaves alone -/

mutual

/-- The type variables are bound by lines, which have no markers. -/
theorem typeVariablesOf_respelled {aliases : List String} {member : Bool} {st st' : Statement}
    (h : st.Respells aliases member st') : typeVariablesOf st = typeVariablesOf st' := by
  match h with
  | .simple hbody =>
    rw [typeVariablesOf, ← typeVariablesOfLine_unplaced, hbody, typeVariablesOfLine_unplaced, typeVariablesOf]
  | .clause _ hbody => exact typeVariablesOfSuite_respelled hbody
  | .ofFunction _ _ hbody => exact typeVariablesOfSuite_respelled hbody
  | .ofClass _ _ hbody => exact typeVariablesOfSuite_respelled hbody

theorem typeVariablesOfSuite_respelled {aliases : List String} {member : Bool} {b b' : Suite}
    (h : b.Respells aliases member b') : typeVariablesOfSuite b = typeVariablesOfSuite b' := by
  match h with
  | .inline hbody =>
    rw [typeVariablesOfSuite, ← typeVariablesOfLine_unplaced, hbody, typeVariablesOfLine_unplaced, typeVariablesOfSuite]
  | .block hbody => exact typeVariablesOfAll_respelled hbody

theorem typeVariablesOfAll_respelled {aliases : List String} {member : Bool} {ss ss' : List Statement}
    (h : StatementsRespell aliases member ss ss') : typeVariablesOfAll ss = typeVariablesOfAll ss' := by
  match h with
  | .nil => rfl
  | .cons hfirst hrest =>
    rw [typeVariablesOfAll, typeVariablesOf_respelled hfirst, typeVariablesOfAll_respelled hrest, typeVariablesOfAll]

end

theorem any_marks_of_plain {aliases : List String} {ds : List Decorator} (h : Plain aliases ds) {m : Marker}
    (hm : m ∈ entryMarkers) : ds.any (m.marks aliases) = false := by
  rw [any_marks_eq hm, plain_iff.mp h, List.any_nil]

/-- Where nothing is respelled but markers that are not there, the decorators are the same but for places. -/
theorem Source.Prelude.Respells.unplaced_eq {aliases : List String} {consumed : List Marker} {p p' : Prelude}
    (h : p.Respells aliases consumed p') (hplain : Plain aliases p.decorators)
    (hconsumed : ∀ m ∈ consumed, m ∈ entryMarkers) : p.unplaced = p'.unplaced := by
  have hsame : List.Forall₂ (Decorator.Respells aliases []) p.decorators p'.decorators :=
    plain_respelled h.decorators hplain fun m hm => .inr (hconsumed m hm)
  rw [Prelude.unplaced, Prelude.unplaced, map_unplaced_eq hsame, h.lead, h.gap]

mutual

/-- Without an entry marker, only the members of an interface can be respelled. -/
theorem Source.Statement.Respells.unplaced_eq {aliases : List String} {st st' : Statement}
    (h : st.Respells aliases false st') (hplain : Plain aliases st.decorators) : st.unplaced = st'.unplaced := by
  match h with
  | .simple hbody => rw [Statement.unplaced, hbody, Statement.unplaced]
  | .clause hhead hbody =>
    have hsuite := hbody.unplaced_eq hplain
    rw [Statement.unplaced, hhead, hsuite, Statement.unplaced]
  | .ofFunction hprelude hhead hbody =>
    obtain ⟨hdecorators, hinner⟩ := plain_append.mp hplain
    have hsuite := hbody.unplaced_eq hinner
    have hbefore := hprelude.unplaced_eq hdecorators (by simp [consumedOfFunction])
    rw [Statement.unplaced, hbefore, hhead, hsuite, Statement.unplaced]
  | .ofClass hprelude hhead hbody =>
    obtain ⟨hdecorators, hinner⟩ := plain_append.mp hplain
    rw [any_marks_of_plain hdecorators (by decide)] at hbody
    have hsuite := hbody.unplaced_eq hinner
    have hbefore := hprelude.unplaced_eq hdecorators (by
      simp [consumedOfClass, any_marks_of_plain hdecorators (show Marker.implementation ∈ entryMarkers by decide)])
    rw [Statement.unplaced, hbefore, hhead, hsuite, Statement.unplaced]

theorem Source.Suite.Respells.unplaced_eq {aliases : List String} {b b' : Suite} (h : b.Respells aliases false b')
    (hplain : Plain aliases b.decorators) : b.unplaced = b'.unplaced := by
  match h with
  | .inline hbody => rw [Suite.unplaced, hbody, Suite.unplaced]
  | .block hbody => rw [Suite.unplaced, hbody.unplaced_eq hplain, Suite.unplaced]

theorem StatementsRespell.unplaced_eq {aliases : List String} {ss ss' : List Statement}
    (h : StatementsRespell aliases false ss ss') (hplain : Plain aliases (decoratorsOf ss)) :
    statementsUnplaced ss = statementsUnplaced ss' := by
  match h with
  | .nil => rfl
  | .cons hfirst hrest =>
    obtain ⟨hplain, hplain'⟩ := plain_append.mp hplain
    rw [statementsUnplaced, hfirst.unplaced_eq hplain, hrest.unplaced_eq hplain', statementsUnplaced]

end

end Conformance
