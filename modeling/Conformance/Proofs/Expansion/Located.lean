import Conformance.Proofs.Expansion.Blame
import Conformance.Proofs.Grammar.Origin
import Conformance.Proofs.Source.Parsed
import Conformance.Proofs.Source.Places

/-!
# Located diagnostics

The diagnostic of a text that can be read says where the text is wrong.  It names a part of the text, and its span goes
from the first token of that part to the last one; so do the spans of its notes.  The span of the definition around the
part is never used in its place (`report_located`).  The spans are counted in the text that the module renders to; they
are those of the given text up to the first logical line that starts behind a backslash or a form feed, and after one
they may not be (`report_misplaces_joinedMarker`).

The argument has two halves.  What an error names has a first and a last token, and these are tokens of the definition
that is visited (`Visit.Blames.within`).  The tokens of the visited definitions are tokens of the module
(`visitsOf_parsed`), which stand in the text where their places say.
-/

namespace Conformance

open Source SyntaxTree

/-! ## Trees with tokens of a text -/

/-- The tree holds tokens, and they are among the given ones. -/
structure Source.SyntaxTree.Within (ts : List Token) (t : SyntaxTree) : Prop where
  solid : t.Solid
  subset : t.leaves ⊆ ts

namespace Source.SyntaxTree.Within

variable {ts : List Token} {t : SyntaxTree}

theorem child {k : Kind} {cs : List SyntaxTree} {c : SyntaxTree} (h : (node k cs).Within ts) (hc : c ∈ cs) :
    c.Within ts :=
  ⟨h.solid.child hc, fun _ ht => h.subset (mem_leavesAll hc ht)⟩

theorem core (h : t.Within ts) : t.core.Within ts :=
  holds_core (fun _ _ _ hnode hc => hnode.child hc) t h

/-- An argument of a call is part of it. -/
theorem arguments {a : SyntaxTree} (h : t.Within ts) (ha : a ∈ t.arguments) :
    a.Within ts ∧ a.argument?.isSome = true := by
  unfold SyntaxTree.arguments at ha
  split at ha
  · next f rest hcore =>
    obtain ⟨hmem, hargument⟩ := List.mem_filter.mp ha
    have hcall := h.core
    rw [hcore] at hcall
    exact ⟨hcall.child (List.mem_cons_of_mem _ hmem), hargument⟩
  · cases ha

end Source.SyntaxTree.Within

/-- The base of a class is part of its head. -/
theorem Source.ClassHead.within_base {ts : List Token} {h : ClassHead} {base : SyntaxTree} (hhead : h.tree.Within ts)
    (hbase : .positional base ∈ h.bases) : base.Within ts := by
  unfold ClassHead.bases at hbase
  split at hbase
  · next list hchild =>
    obtain ⟨a, ha, hvalue⟩ := List.mem_filterMap.mp hbase
    obtain ⟨more, rfl⟩ := Grammar.argument?_eq_positional hvalue
    have hlist : list.Within ts :=
      hhead.child (List.mem_cons_of_mem _ (List.mem_cons_of_mem _ (List.mem_of_find?_eq_some hchild)))
    cases list with
    | leaf t => cases ha
    | node k cs => exact (hlist.child ha).child List.mem_cons_self
  · cases hbase

/-! ## Parts with tokens of a text -/

/-- The part has a first and a last token, and they are among the given ones. -/
def Subject.Within (ts : List Token) (x : Subject) : Prop :=
  ∃ first ∈ ts, ∃ last ∈ ts, x.first? = some first ∧ x.last? = some last

namespace Subject.Within

variable {ts us : List Token}

theorem mono {x : Subject} (h : x.Within ts) (hsub : ts ⊆ us) : x.Within us := by
  obtain ⟨first, hfirst, last, hlast, hends⟩ := h
  exact ⟨first, hsub hfirst, last, hsub hlast, hends⟩

/-- A list of tokens that is not empty has ends. -/
theorem exists_ends (hne : us ≠ []) (hsub : us ⊆ ts) :
    ∃ first ∈ ts, ∃ last ∈ ts, us.head? = some first ∧ us.getLast? = some last := by
  have hfirst := List.head?_eq_some_head hne
  have hlast := List.getLast?_eq_some_getLast hne
  exact ⟨_, hsub (List.mem_of_head? hfirst), _, hsub (List.mem_of_getLast? hlast), hfirst, hlast⟩

theorem name {t : Token} (ht : t ∈ ts) : (Subject.name t).Within ts :=
  ⟨t, ht, t, ht, rfl, rfl⟩

theorem expression {t : SyntaxTree} (h : t.Within ts) : (Subject.expression t).Within ts :=
  exists_ends h.solid.leaves_ne_nil h.subset

theorem argument {a : SyntaxTree} (h : a.Within ts) (ha : a.argument?.isSome = true) :
    (Subject.argument a).Within ts := by
  refine exists_ends (h.solid.argument_ne_nil ha) ?_
  cases a with
  | leaf t => cases ha
  | node k cs => exact fun _ ht => h.subset (leavesAll_subset (List.filter_subset_self _) ht)

end Subject.Within

/-! ## Definitions that were parsed -/

/-- A decorator of a definition that was parsed. -/
theorem Source.Prelude.Meets.within_decorator {p : Prelude} (h : p.Meets parsedForm) {d : Decorator}
    (hd : d ∈ p.decorators) :
    d.expression.Within (p.decorators.flatMap Decorator.tokens) ∧
      d.sign ∈ p.decorators.flatMap Decorator.tokens := by
  have hline : Readable false [d.tree] := (h.decorators d hd).2.1
  have hsolid : d.tree.Solid := hline.solid _ List.mem_cons_self
  have hsub : d.tokens ⊆ p.decorators.flatMap Decorator.tokens := fun t ht => List.mem_flatMap.mpr ⟨d, hd, ht⟩
  refine ⟨⟨hsolid.child (List.mem_cons_of_mem _ List.mem_cons_self), ?_⟩, hsub List.mem_cons_self⟩
  exact fun t ht => hsub (List.mem_cons_of_mem _ ht)

/-- The head of a suite that was parsed. -/
theorem Source.Suite.Meets.readable_head {cases : Bool} {head : SyntaxTree} {b : Suite}
    (h : b.Meets parsedForm cases head) : ∃ more, Readable cases (head :: more) := by
  cases b with
  | inline body stop => exact ⟨[body], h.1⟩
  | block opening indent body footer => exact ⟨[], h.1⟩

/-- A definition that was parsed, with a prelude, a head and a suite, all its tokens among the given ones. -/
structure Parsed (ts : List Token) (p : Prelude) (h : SyntaxTree) (b : Suite) : Prop where
  prelude : p.Meets parsedForm
  suite : b.Meets parsedForm false h
  tokens : p.decorators.flatMap Decorator.tokens ++ (h.leaves ++ b.tokens) ⊆ ts

namespace Parsed

variable {ts : List Token} {p : Prelude} {h : SyntaxTree} {b : Suite}

theorem decorators_subset (hp : Parsed ts p h b) : p.decorators.flatMap Decorator.tokens ⊆ ts :=
  (List.append_subset.mp hp.tokens).1

theorem suite_subset (hp : Parsed ts p h b) : b.tokens ⊆ ts :=
  (List.append_subset.mp (List.append_subset.mp hp.tokens).2).2

theorem head (hp : Parsed ts p h b) : h.Within ts := by
  obtain ⟨more, hline⟩ := hp.suite.readable_head
  exact ⟨hline.solid _ List.mem_cons_self, (List.append_subset.mp (List.append_subset.mp hp.tokens).2).1⟩

theorem expression (hp : Parsed ts p h b) {d : Decorator} (hd : d ∈ p.decorators) : d.expression.Within ts := by
  obtain ⟨hexpression, -⟩ := hp.prelude.within_decorator hd
  exact ⟨hexpression.solid, fun t ht => hp.decorators_subset (hexpression.subset ht)⟩

theorem decorator (hp : Parsed ts p h b) {d : Decorator} (hd : d ∈ p.decorators) :
    (Subject.decorator d).Within ts := by
  obtain ⟨-, hsign⟩ := hp.prelude.within_decorator hd
  obtain ⟨-, -, last, hlast, -, hend⟩ := Subject.Within.expression (hp.expression hd)
  exact ⟨d.sign, hp.decorators_subset hsign, last, hlast, rfl, hend⟩

theorem argument (hp : Parsed ts p h b) {d : Decorator} (hd : d ∈ p.decorators) {a : SyntaxTree}
    (ha : a ∈ d.expression.arguments) : (Subject.argument a).Within ts := by
  obtain ⟨hwithin, hargument⟩ := (hp.expression hd).arguments ha
  exact .argument hwithin hargument

end Parsed

/-- The parts of a class. -/
theorem Class.parsed {c : Class} (h : c.statement.Meets parsedForm false) :
    Parsed c.statement.tokens c.prelude c.head.tree c.body :=
  ⟨h.2.1, h.2.2, fun _ ht => ht⟩

namespace Function

variable {f : Function}

theorem leaves_tree (f : Function) : f.head.tree.leaves = f.head.tokens := by
  rw [FunctionHead.tree, FunctionHead.tokens, leaves, leavesAll_append]
  cases f.head.async <;> rfl

/-- The parts of a function. -/
theorem parsed (h : f.statement.Meets parsedForm false) :
    Parsed f.statement.tokens f.prelude f.head.tree f.body := by
  refine ⟨h.2.1, h.2.2.2, ?_⟩
  rw [f.leaves_tree]
  exact fun _ ht => ht

theorem shaped (h : f.statement.Meets parsedForm false) : f.head.Shaped := by
  obtain ⟨more, hline⟩ := h.2.2.2.readable_head
  exact FunctionHead.shaped_of_readable hline h.2.2.1

theorem head_subset : f.head.tokens ⊆ f.statement.tokens :=
  fun _ ht => List.mem_append_right _ (List.mem_append_left _ ht)

theorem name_mem : f.head.name ∈ f.head.tokens :=
  List.mem_append_right _ (List.mem_cons_of_mem _ List.mem_cons_self)

/-- A function is found from its first word to its last token. -/
theorem within_function (h : f.statement.Meets parsedForm false) :
    (Subject.function f).Within f.statement.tokens := by
  obtain ⟨last, hlast, hend⟩ := Suite.exists_lastToken f.body h.2.2.2
  refine ⟨f.head.async.getD f.head.word, head_subset ?_, last, (parsed h).suite_subset hlast, rfl, hend⟩
  unfold FunctionHead.tokens
  cases f.head.async with
  | none => exact List.mem_cons_self
  | some t => exact List.mem_cons_self

/-- The parameters of a function are found between its parentheses. -/
theorem within_parameters (h : f.statement.Meets parsedForm false) :
    (Subject.parameters f.head).Within f.statement.tokens := by
  obtain ⟨opening, ps, closing, hparameters⟩ := (shaped h).parameters
  have hsub : (leavesAll f.head.parameters).tail ⊆ f.statement.tokens := fun t ht =>
    head_subset (f.head.parameters_subset (List.mem_of_mem_tail ht))
  refine Subject.Within.exists_ends ?_ hsub
  rw [hparameters, leavesAll, leavesAll_append]
  simp [leaves, leavesAll]

/-- What is wrong with a test is part of it. -/
theorem Breaks.within {aliases : List String} {w : Violation} {x : Subject} (hx : f.Breaks aliases w x)
    (h : f.statement.Meets parsedForm false) : x.Within f.statement.tokens := by
  have hmember : ∀ {d : Decorator} {m : Marker} {ds : List Decorator},
      f.prelude.decorators.filter (m.marks aliases) = ds → d ∈ ds → d ∈ f.prelude.decorators := by
    rintro d m _ rfl hd
    exact (List.mem_filter.mp hd).1
  cases hx with
  | async _ => exact within_function h
  | reserved _ => exact .name (head_subset name_mem)
  | noBody _ => exact within_function h
  | parameters _ => exact within_parameters h
  | panicTwice hds => exact (parsed h).decorator (hmember hds (by simp))
  | panicForm hds _ => exact (parsed h).decorator (hmember hds (by simp))
  | panicWithResult _ _ => exact within_function h
  | requirement hd _ ha _ => exact (parsed h).argument hd ha

end Function

/-! ## What is wrong with a class -/

section
variable {c : Class} {w : Violation} {x : Subject} {notes : List (String × Option Subject)}

theorem Source.tokensOf_append (ss ss' : List Statement) : tokensOf (ss ++ ss') = tokensOf ss ++ tokensOf ss' := by
  induction ss with
  | nil => rfl
  | cons s ss ih => rw [List.cons_append, tokensOf, tokensOf, ih, List.append_assoc]

/-- The statements of a suite that was parsed. -/
theorem Source.Suite.statements_infix (b : Suite) : tokensOf b.statements <:+: b.tokens := by
  cases b with
  | inline body stop => exact List.nil_infix
  | block opening indent body footer => exact List.infix_rfl

theorem Source.Suite.Meets.statement {b : Suite} {h : ClassHead} (hb : b.Meets parsedForm false h.tree) {s : Statement}
    (hs : s ∈ b.statements) : s.Meets parsedForm false := by
  cases b with
  | inline body stop => cases hs
  | block opening indent body footer => exact (statementsMeet_iff parsedForm).mp hb.2.2.2.2.1 s hs

theorem Class.statements_infix (c : Class) : tokensOf c.body.statements <:+: c.statement.tokens :=
  c.body.statements_infix.trans ((List.suffix_append _ _).trans (List.suffix_append _ _)).isInfix

theorem Class.statement_subset {s : Statement} (hs : s ∈ c.body.statements) : s.tokens ⊆ c.statement.tokens := by
  obtain ⟨before, after, hsplit⟩ := List.append_of_mem hs
  intro t ht
  refine c.statements_infix.subset ?_
  rw [hsplit, tokensOf_append, tokensOf]
  exact List.mem_append_right _ (List.mem_append_left _ ht)

theorem Class.name_mem (c : Class) : c.head.name ∈ c.statement.tokens :=
  List.mem_append_right _ (List.mem_append_left _ (List.mem_cons_of_mem _ List.mem_cons_self))

/-- The parts that the message and its notes name have ends among the tokens. -/
def AllWithin (ts : List Token) (x : Subject) (notes : List (String × Option Subject)) : Prop :=
  x.Within ts ∧ ∀ n ∈ notes, ∀ y, n.2 = some y → y.Within ts

theorem AllWithin.alone {ts : List Token} (hx : x.Within ts) : AllWithin ts x [] :=
  ⟨hx, fun _ hn => absurd hn List.not_mem_nil⟩

theorem Source.Suite.BreaksInterface.within {aliases : List String} (hx : c.body.BreaksInterface aliases w x notes)
    (h : c.statement.Meets parsedForm false) : AllWithin c.statement.tokens x notes := by
  have hname : ∀ f : Function, f.statement ∈ c.body.statements →
      (Subject.name f.head.name).Within c.statement.tokens := fun f hf =>
    .name (Class.statement_subset hf (Function.head_subset Function.name_mem))
  cases hx with
  | test hf _ hbreaks =>
    exact .alone ((hbreaks.within (h.2.2.statement hf)).mono (Class.statement_subset hf))
  | @duplicate f g before between after hsplit =>
    refine ⟨hname g (by rw [hsplit]; simp), ?_⟩
    rintro n hn y hy
    cases List.mem_singleton.mp hn
    cases hy
    exact hname f (by rw [hsplit]; simp)

theorem Source.ClassHead.BreaksImplementation.within {typeVariables : List String} {d : Decorator}
    (hx : c.head.BreaksImplementation typeVariables d.expression.arguments w x notes) (hd : d ∈ c.prelude.decorators)
    (h : c.statement.Meets parsedForm false) : AllWithin c.statement.tokens x notes := by
  have hunplaced : ∀ {message : String}, AllWithin c.statement.tokens (.name c.head.name) [(message, none)] := by
    intro message
    refine ⟨.name c.name_mem, ?_⟩
    rintro n hn y hy
    cases List.mem_singleton.mp hn
    cases hy
  cases hx with
  | noPair ha _ => exact .alone ((Class.parsed h).argument hd ha)
  | negative hbase _ _ => exact .alone (.expression (ClassHead.within_base (Class.parsed h).head hbase).core)
  | noInterface _ _ => exact hunplaced
  | unexpectedPairs _ _ hargs => exact .alone ((Class.parsed h).argument hd (by simp [hargs]))
  | missingPairs _ _ _ _ => exact hunplaced

end

/-! ## Visits -/

/-- The definition that is visited. -/
def Visit.definition : Visit → Statement
  | enterClass _ c => c.statement
  | enterFunction f => f.statement
  | leaveClass c => c.statement

/-- What a visit is blamed for is part of the definition that is visited. -/
theorem Visit.Blames.within {s : Surroundings} {v : Visit} {w : Violation} {x : Subject}
    {notes : List (String × Option Subject)} (hv : v.Blames s w x notes)
    (h : v.definition.Meets parsedForm false) : AllWithin v.definition.tokens x notes := by
  have hmember : ∀ {p : Prelude} {ds : List Decorator} {d : Decorator},
      entryDecorators s.settings.aliases p.decorators = ds → d ∈ ds → d ∈ p.decorators := by
    rintro p _ d rfl hd
    exact (List.mem_filter.mp hd).1
  cases hv with
  | markedTwice hds => exact .alone ((Class.parsed h).decorator (hmember hds (by simp)))
  | nested hds _ => exact .alone ((Class.parsed h).decorator (hmember hds (by simp)))
  | functionMarkedTwice hds => exact .alone ((Function.parsed h).decorator (hmember hds (by simp)))
  | functionArguments hds _ hargs =>
    exact .alone ((Function.parsed h).argument (hmember hds List.mem_cons_self) (by simp [hargs]))
  | functionInterface _ _ _ => exact .alone (Function.within_function h)
  | functionImplementation _ _ => exact .alone (Function.within_function h)
  | arguments hds _ hargs =>
    exact .alone ((Class.parsed h).argument (hmember hds List.mem_cons_self) (by simp [hargs]))
  | interface _ _ _ hbreaks => exact hbreaks.within h
  | implementation hds _ hbreaks => exact hbreaks.within (hmember hds List.mem_cons_self) h

/-- A visit of a definition that was parsed, with its tokens among the given ones. -/
def Visit.Parsed (ts : List Token) (v : Visit) : Prop :=
  v.definition.Meets parsedForm false ∧ v.definition.tokens <:+: ts

theorem Visit.Parsed.mono {ts us : List Token} {v : Visit} (h : v.Parsed ts) (hts : ts <:+: us) : v.Parsed us :=
  ⟨h.1, h.2.trans hts⟩

section
variable {aliases : List String} {v : Visit}

mutual

/-- The definitions that are visited in a statement are part of it. -/
theorem Source.Statement.visits_parsed {cases : Bool} {around : List Class} (s : Statement)
    (h : s.Meets parsedForm cases) (hv : v ∈ s.visits aliases around) : v.Parsed s.tokens := by
  cases s with
  | simple lead body stop => cases hv
  | clause lead head body =>
    exact (Source.Suite.visits_parsed body h.2.2 hv).mono (List.suffix_append _ _).isInfix
  | ofFunction prelude head body =>
    obtain rfl : cases = false := h.1
    rcases List.mem_cons.mp hv with rfl | hv
    · exact ⟨h, List.infix_rfl⟩
    · exact (Source.Suite.visits_parsed body h.2.2.2 hv).mono
        ((List.suffix_append _ _).trans (List.suffix_append _ _)).isInfix
  | ofClass prelude head body =>
    obtain rfl : cases = false := h.1
    rcases List.mem_cons.mp hv with rfl | hv
    · exact ⟨h, List.infix_rfl⟩
    · rcases List.mem_append.mp hv with hv | hv
      · exact (Source.Suite.visits_parsed body h.2.2 hv).mono
          ((List.suffix_append _ _).trans (List.suffix_append _ _)).isInfix
      · split at hv
        · cases List.mem_singleton.mp hv
          exact ⟨h, List.infix_rfl⟩
        · cases hv

theorem Source.Suite.visits_parsed {cases : Bool} {head : SyntaxTree} {around : List Class} (b : Suite)
    (h : b.Meets parsedForm cases head) (hv : v ∈ b.visits aliases around) : v.Parsed b.tokens := by
  cases b with
  | inline body stop => cases hv
  | block opening indent body footer => exact visitsOf_parsed body h.2.2.2.2.1 hv

theorem visitsOf_parsed {cases : Bool} {around : List Class} (ss : List Statement)
    (h : statementsMeet parsedForm cases ss) (hv : v ∈ visitsOf aliases around ss) : v.Parsed (tokensOf ss) := by
  cases ss with
  | nil => cases hv
  | cons s ss =>
    rcases List.mem_append.mp hv with hv | hv
    · exact (Source.Statement.visits_parsed s h.1 hv).mono (List.prefix_append _ _).isInfix
    · exact (visitsOf_parsed ss h.2 hv).mono (List.suffix_append _ _).isInfix

end

end

/-! ## Diagnostics -/

/-- The stretch of text goes from the first token of the part to its last one, and these are among the given ones. -/
def Subject.Covers (ts : List Token) (x : Subject) (e : Extent) : Prop :=
  ∃ first ∈ ts, ∃ last ∈ ts, ∃ a b, x.first? = some first ∧ x.last? = some last ∧ first.extent? = some a ∧
    last.extent? = some b ∧ e = ⟨a.start, x.stop b⟩

theorem Subject.Within.covers {pre rest : List Char} {ts : List Token} {x : Subject} (hx : x.Within ts)
    (hts : Standing pre ts rest) : ∃ e, x.Covers ts e ∧ x.extent? = some e := by
  obtain ⟨first, hfirst, last, hlast, hstart, hend⟩ := hx
  obtain ⟨_, _, _, ha⟩ := hts.mem hfirst
  obtain ⟨_, _, _, hb⟩ := hts.mem hlast
  refine ⟨_, ⟨first, hfirst, last, hlast, _, _, hstart, hend, ha, hb, rfl⟩, ?_⟩
  rw [Subject.extent?, hstart, hend, Option.bind_some, Option.bind_some, ha, hb]
  rfl

theorem Subject.Covers.place {ts : List Token} {t : Token} {e : Extent} (h : (Subject.name t).Covers ts e) :
    t.place = some e.start := by
  obtain ⟨first, -, last, -, a, b, hfirst, -, ha, -, rfl⟩ := h
  cases hfirst
  obtain ⟨p, hp, rfl⟩ := Option.map_eq_some_iff.mp ha
  exact hp

/-- The first span starts before the second one. -/
def Span.Precedes (p q : Span) : Prop :=
  p.line < q.line ∨ p.line = q.line ∧ p.column < q.column

/-- The note has the wording, and a span exactly if it names a part: the one that covers it. -/
def Note.Names (filename : String) (ts : List Token) (n : String × Option Subject) (note : Note) : Prop :=
  note.message = n.1 ∧ (n.2 = none → note.span = none) ∧
    ∀ x, n.2 = some x → ∃ e, x.Covers ts e ∧ note.span = some (Surroundings.span { filename } e)

/-- The diagnostic is that for the rule `w`, its span covers the part `x`, and its notes are the given ones. -/
structure Diagnostic.Names (filename : String) (ts : List Token) (w : Violation) (x : Subject)
    (notes : List (String × Option Subject)) (d : Diagnostic) : Prop where
  kind : d.kind = w.kind
  message : d.message = w.message
  span : ∃ e, x.Covers ts e ∧ d.span = some (Surroundings.span { filename } e)
  notes : List.Forall₂ (Note.Names filename ts) notes d.notes

section
variable {s : Surroundings} {w : Violation} {x : Subject} {notes : List (String × Option Subject)}

theorem AllWithin.names {pre rest : List Char} {ts : List Token} (h : AllWithin ts x notes) (hts : Standing pre ts rest)
    (definition : Option Extent) : (w.faultIn s definition x notes).diagnostic.Names s.filename ts w x notes := by
  obtain ⟨e, hcovers, hextent⟩ := h.1.covers hts
  refine ⟨rfl, rfl, ⟨e, hcovers, ?_⟩, ?_⟩
  · show (x.extent?.bind _ <|> _) = _
    rw [hextent]
    rfl
  · show List.Forall₂ _ _ (List.map _ (List.map _ (List.map _ (List.map _ notes))))
    simp only [List.map_map, List.forall₂_map_right_iff, List.forall₂_same]
    intro n hn
    refine ⟨rfl, fun hnone => ?_, fun y hy => ?_⟩
    · simp [Remark.locate, hnone]
    · obtain ⟨e', hcovers', hextent'⟩ := (h.2 n hn y hy).covers hts
      refine ⟨e', hcovers', ?_⟩
      simp only [Function.comp_apply, Remark.locate, hy, Option.bind_some, hextent']
      rfl

/-- Tests of one name are the only rule with a diagnostic of that kind. -/
theorem Visit.Blames.of_duplicate {v : Visit} (hv : v.Blames s w x notes) (hw : w.kind = .duplicateTestName) :
    ∃ c f g before between after message, v = .leaveClass c ∧
      c.body.statements = before ++ Function.statement f :: (between ++ Function.statement g :: after) ∧
      f.name = g.name ∧ x = .name g.head.name ∧ notes = [(message, some (.name f.head.name))] := by
  cases hv with
  | interface _ _ _ hbreaks =>
    cases hbreaks with
    | test _ _ hbreaks => cases hbreaks <;> cases hw
    | duplicate hsplit _ _ hname => exact ⟨_, _, _, _, _, _, _, rfl, hsplit, hname, rfl, rfl⟩
  | implementation _ _ hbreaks => cases hbreaks <;> cases hw
  | _ => cases hw

/-- The names of two functions of a class, in the order of the functions. -/
theorem Class.names_in_order {c : Class} {f g : Function} {before between after : List Statement}
    (h : c.body.statements = before ++ f.statement :: (between ++ g.statement :: after)) :
    ∃ us vs ws, c.statement.tokens = us ++ f.head.name :: (vs ++ g.head.name :: ws) := by
  obtain ⟨us, vs, hf⟩ := List.append_of_mem (Function.head_subset (Function.name_mem (f := f)))
  obtain ⟨us', vs', hg⟩ := List.append_of_mem (Function.head_subset (Function.name_mem (f := g)))
  obtain ⟨front, rear, hinfix⟩ := c.statements_infix
  rw [h, tokensOf_append, tokensOf, tokensOf_append, tokensOf, hf, hg] at hinfix
  refine ⟨front ++ (tokensOf before ++ us), vs ++ (tokensOf between ++ us'), vs' ++ tokensOf after ++ rear, ?_⟩
  rw [← hinfix]
  simp only [List.append_assoc, List.cons_append]

/-- The one note and the message are about names with the same text, and the span of the note starts first. -/
def Diagnostic.NotesEarlier (x : Subject) (notes : List (String × Option Subject)) (d : Diagnostic) : Prop :=
  ∃ first second message note p q, x = .name second ∧ notes = [(message, some (.name first))] ∧
    first.text = second.text ∧ d.notes = [note] ∧ note.span = some p ∧ d.span = some q ∧ p.Precedes q

/-- Of two tests of one name, the note is about the first one and the message about the second one. -/
theorem Visit.Blames.notesEarlier {filename : String} {v : Visit} (hv : v.Blames s w x notes)
    {pre rest : List Char} {ts : List Token} (hparsed : v.Parsed ts) (hts : Standing pre ts rest) {d : Diagnostic}
    (hd : d.Names filename ts w x notes) (hkind : d.kind = .duplicateTestName) : d.NotesEarlier x notes := by
  obtain ⟨c, f, g, before, between, after, message, rfl, hsplit, hname, rfl, rfl⟩ :=
    hv.of_duplicate (hd.kind.symm.trans hkind)
  obtain ⟨note, hnote, hnotes⟩ : ∃ note, Note.Names filename ts (message, some (.name f.head.name)) note ∧
      d.notes = [note] := by
    obtain ⟨note, _, hnote, hnil, heq⟩ := List.forall₂_cons_left_iff.mp hd.notes
    cases hnil
    exact ⟨note, hnote, heq⟩
  obtain ⟨e, hcovers, hspan⟩ := hd.span
  obtain ⟨e', hcovers', hspan'⟩ := hnote.2.2 _ rfl
  refine ⟨_, _, _, note, _, _, rfl, rfl, hname, hnotes, hspan', hspan, ?_⟩
  -- the names stand in the text one after the other
  obtain ⟨us, vs, ws, htokens⟩ := Class.names_in_order hsplit
  obtain ⟨front, rear, hinfix⟩ := hparsed.2
  change front ++ c.statement.tokens ++ rear = ts at hinfix
  have hall : ts = (front ++ us) ++ f.head.name :: (vs ++ g.head.name :: (ws ++ rear)) := by
    rw [← hinfix, htokens]
    simp only [List.append_assoc, List.cons_append]
  rw [hall] at hts
  have hf : f.statement.Meets parsedForm false := hparsed.1.2.2.statement (by rw [hsplit]; simp)
  obtain ⟨p, q, hp, hq, hbefore⟩ := hts.before (Function.shaped hf).name
  cases hp.symm.trans hcovers'.place
  cases hq.symm.trans hcovers.place
  unfold Position.Before at hbefore
  unfold Span.Precedes
  simp only [Surroundings.span]
  omega

end

/-- The diagnostic says what is wrong with the text and where.  It names a part of one of the definitions of the module
that was read, and the tokens of the module stand where their places say. -/
def Diagnostic.Located (settings : Settings) (filename source : String) (d : Diagnostic) : Prop :=
  ∃ m v w x notes, Module.parse? source = some m ∧ m.StandsIn source ∧ v ∈ m.visits settings.aliases ∧
    v.Blames (m.surroundings settings filename) w x notes ∧ d.Names filename m.tokens w x notes ∧
    (d.kind = .duplicateTestName → d.NotesEarlier x notes)

/-- The fault of a text that can be read is located. -/
theorem located_of_fault {settings : Settings} {filename source : String} {p : Progress} {f : Fault Extent}
    (h : ((expandText settings filename source).run p).1 = .error (.fault f)) (hkind : f.kind ≠ .invalidSyntax) :
    f.diagnostic.Located settings filename source := by
  rw [expandText] at h
  cases hparse : Module.parse? source with
  | none =>
    rw [hparse] at h
    cases h
    exact absurd rfl hkind
  | some m =>
    rw [hparse] at h
    have hends : Ends (expandModule settings filename m >>= fun m' => pure m'.render) _ :=
      Ends.bind_total (expandModule_ends settings filename m) fun _ => Ends.pure _
    have hfirst := (hends p).symm.trans (failureOf?_eq_some.mpr h)
    obtain ⟨v, hv, hfailure⟩ := List.exists_of_findSome?_eq_some hfirst
    obtain ⟨w, x, notes, definition, hblames, rfl⟩ := Visit.failure?_eq_fault hfailure
    have hparsed := visitsOf_parsed m.body (parse?_meets hparse).1 hv
    have hstands := parse?_standsIn hparse
    have hwithin : AllWithin m.tokens x notes := by
      obtain ⟨hx, hnotes⟩ := hblames.within hparsed.1
      exact ⟨hx.mono hparsed.2.subset, fun n hn y hy => (hnotes n hn y hy).mono hparsed.2.subset⟩
    have hnames := hwithin.names (w := w) (s := m.surroundings settings filename) hstands.1 definition
    exact ⟨m, v, w, x, notes, hparse, hstands, hv, hblames, hnames, hblames.notesEarlier hparsed hstands.1 hnames⟩

/-- Every diagnostic of a report is located, unless the text cannot be read. -/
theorem report_located {settings : Settings} {filename source : String} {counter : Nat} {r : Report} {d : Diagnostic}
    (h : (report settings filename source counter).1 = .ok r) (hd : d ∈ r.diagnostics)
    (hkind : d.kind ≠ .invalidSyntax) : d.Located settings filename source := by
  unfold report at h
  split at h
  · cases h
    cases hd
  · next f p hfault =>
    cases h
    cases List.mem_singleton.mp hd
    exact located_of_fault (by rw [hfault]) hkind
  · cases h

/-- An interface with two tests of one name. -/
def twiceTested : String := "@tested_trait\nclass A:\n    @test\n    def t(): pass\n\n    @test\n    def t(): pass\n"

/-- The second name is reported, with a note on the first one. -/
def twiceTestedDiagnostic : Diagnostic :=
  { kind := .duplicateTestName, message := "the test `t` is defined multiple times",
    span := some { line := 7, column := 9, endLine := 7, endColumn := 10 },
    notes := [{ message := "`t` first defined here",
                span := some { line := 4, column := 9, endLine := 4, endColumn := 10 } }] }

theorem report_located_twiceTested :
    (report {} "<string>" twiceTested 0).1 = .ok { code := twiceTested, diagnostics := [twiceTestedDiagnostic] } ∧
      isFlush (withoutMark twiceTested.toList) = true ∧ twiceTestedDiagnostic.Located {} "<string>" twiceTested := by
  have h : (report {} "<string>" twiceTested 0).1 =
      .ok { code := twiceTested, diagnostics := [twiceTestedDiagnostic] } := by decide +kernel
  exact ⟨h, by decide +kernel, report_located h List.mem_cons_self (by decide)⟩

/-- A marker with an argument, behind a backslash that joins its line to an empty one. -/
def joinedMarker : String := "\\\n@tested_trait(1)\nclass A: pass\n"

/-- The argument of the marker stands on the second line, and is reported on the first one. -/
theorem report_misplaces_joinedMarker :
    (report {} "<string>" joinedMarker 0).1 = .ok
        { code := joinedMarker,
          diagnostics := [{ kind := .malformedArguments, message := "@tested_trait takes no arguments",
                            span := some { line := 1, column := 15, endLine := 1, endColumn := 16 } }] } ∧
      joinedMarker.toList = "\\\n@tested_trait(".toList ++ "1".toList ++ ")\nclass A: pass\n".toList ∧
      Position.origin.after "\\\n@tested_trait(".toList = ⟨2, 15⟩ := by
  decide +kernel

end Conformance
