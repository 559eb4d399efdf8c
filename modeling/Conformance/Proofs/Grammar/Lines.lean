import Conformance.Proofs.Grammar.Generated

/-!
# Lines

A line is read as small statements if it can be (`read_line_of_simple`): no line is both small statements and the head
of a compound statement.  A call is a line of its own, and so is an annotated assignment of one.
-/

namespace Conformance.Source

open SyntaxTree

namespace Grammar

open Peg Nonterminal

section
variable {ts us rest mid : List Token} {xs cs : List SyntaxTree}

/-! ## What may be missing -/

theorem read_opt_of_none {p : E} (hp : Small (opt p)) (h : read p ts = none) : read (opt p) ts = some ([], ts) := by
  rw [opt, read_alt hp, runAlt, h, runAlt, nothing, read_seq (by decide)]
  rfl

theorem read_opt_of_some {p : E} {r : List SyntaxTree × List Token} (hp : Small (opt p)) (h : read p ts = some r) :
    read (opt p) ts = some r := by
  rw [opt, read_alt hp, runAlt, h]

/-- The forms of small statements. -/
theorem read_smallStatement : read (sym smallStatement) ts = runAlt read [keywordStatement, importing, typeAlias,
    annotatedAssignment, assignment, augmentedAssignment, node .expression rightSide] ts := by
  rw [read_sym, ← read_alt (by decide)]
  rfl

/-- The forms of lines. -/
theorem read_line : read (sym line) ts = runAlt read [node .decorator (seq [word "@", sym namedExpression]),
    seq [head, opt (sym simple)], matchHead, sym simple] ts := by
  rw [read_sym, ← read_alt (by decide)]
  rfl

/-! ## Small statements -/

/-- A colon or a semicolon does not stand where nothing is open. -/
theorem nestToken_outside {w : String} (hw : w ∈ [":", ";"]) {t : Token} (haccepts : (Match.word w).accepts t = true) :
    nestToken false [] t = none := by
  simp only [Match.accepts, Bool.and_eq_true, Bool.or_eq_true, beq_iff_eq] at haccepts
  obtain ⟨hkind, rfl⟩ := haccepts
  by_cases hproper : t.Proper
  · have hoperator : t.kind = .operator := by
      rcases hkind with hkind | hkind
      · exact hkind
      · refine absurd ?_ (hproper hkind)
        simp only [List.mem_cons, List.not_mem_nil, or_false] at hw
        rcases hw with hw | hw <;> rw [hw] <;> decide
    rw [nestToken_word hproper (by simp [Token.nests, hoperator]) (by simp)]
    simp only [List.mem_cons, List.not_mem_nil, or_false] at hw
    rcases hw with hw | hw <;> rw [hw] <;> rfl
  · unfold nestToken
    rw [if_neg hproper]

/-- Balanced tokens hold no colon or semicolon after a balanced part. -/
theorem not_balanced_of_outside {w : String} (hw : w ∈ [":", ";"]) {t : Token}
    (haccepts : (Match.word w).accepts t = true) (hus : Balanced false us) (h : us ++ t :: rest = ts)
    (hts : Balanced false ts) : False := by
  rw [Balanced, ← h, walk_append, hus, Option.bind_some, walk_cons, nestToken_outside hw haccepts] at hts
  cases hts

/-- What a small statement that starts with `match` takes, where no colon stands but at the end. -/
theorem smallStatement_balanced {colon : Token} (hus : Balanced false us)
    (hproper : ∀ t ∈ us ++ [colon], t.Proper)
    (hmatch : StartsWith [.word "match"] (us ++ [colon])) (h : read (sym smallStatement) (us ++ [colon]) = some (xs, mid)) :
    ∃ vs, us ++ [colon] = vs ++ mid ∧ Balanced false vs := by
  have hfirsts : ∀ p : E, p.consumes takes = true → (p.firsts takes firstOf).all (isOtherWord "match") = true →
      read p (us ++ [colon]) = none := by
    intro p hp hall
    obtain ⟨t, rest, heq, m, hm, haccepts⟩ := hmatch
    cases List.mem_singleton.mp hm
    exact read_eq_none hp (heq ▸ not_startsWith_of_word haccepts hall)
  rw [read_smallStatement] at h
  obtain ⟨p, hp, hread⟩ := runAlt_eq_some h
  simp only [List.mem_cons, List.not_mem_nil, or_false] at hp
  rcases hp with rfl | rfl | rfl | rfl | rfl | rfl | rfl
  · rw [hfirsts _ (by decide) (by decide)] at hread
    cases hread
  · rw [hfirsts _ (by decide) (by decide)] at hread
    cases hread
  · rw [hfirsts _ (by decide) (by decide)] at hread
    cases hread
  · -- The colon after an annotated place would have to be the last token, and an annotation follows it.
    obtain ⟨_, -, ys, mid₁, _, -, -, hplace, _, mid₂, _, -, -, ⟨t, rfl, haccepts, -⟩, _, mid₃, _, -, hnote, -⟩ :=
      took_of_read (by decide) hread
    obtain ⟨vs, hvs, hbalanced⟩ := read_balanced false (p := sym primary) rfl hproper hplace
    have hlt := (read_progresses _ _ _ _ hnote).2 rfl
    have hne : mid₂ ≠ [] := fun hnil => by
      rw [hnil] at hlt
      exact absurd hlt (Nat.not_lt_zero _)
    have hsplit : us ++ [colon] = (vs ++ t :: mid₂.dropLast) ++ [mid₂.getLast hne] := by
      rw [List.append_assoc, List.cons_append, List.dropLast_concat_getLast, hvs]
    have hbefore := (List.append_inj' hsplit rfl).1
    exact (not_balanced_of_outside (by decide) haccepts hbalanced hbefore.symm hus).elim
  · exact read_balanced false (by decide) hproper hread
  · exact read_balanced false (by decide) hproper hread
  · exact read_balanced false (by decide) hproper hread

/-- The parts of a line that is the head of a `match` statement. -/
theorem read_matchHead_eq_some (hproper : ∀ t ∈ ts, t.Proper) (h : read matchHead ts = some (xs, rest)) :
    ∃ us colon, ts = us ++ [colon] ∧ Balanced false us ∧ (Match.word ":").accepts colon = true ∧
      StartsWith [.word "match"] ts := by
  obtain ⟨_, _, _, -, -, ⟨_, -, _, _, _, -, -, ⟨w, rfl, haccepts, -⟩, _, _, _, -, hsubject, -, colon, rfl, hcolon, -⟩, -, -,
    rfl⟩ := took_of_read (by decide) h
  obtain ⟨ws, rfl, hbalanced⟩ := read_balanced false (by decide) (fun t ht => hproper t (List.mem_cons_of_mem _ ht)) hsubject
  have htoken : nestToken false [] w = some [] := Match.nest?_accepts rfl (hproper w (by simp)) haccepts
  refine ⟨w :: ws, colon, rfl, ?_, hcolon, w, _, rfl, _, List.mem_singleton_self _, haccepts⟩
  rw [Balanced, walk_cons, htoken]
  exact hbalanced

/-- No line of small statements is the head of a `match` statement. -/
theorem read_matchHead_eq_none (hproper : ∀ t ∈ ts, t.Proper) (h : read (sym simple) ts = some (xs, [])) :
    read matchHead ts = none := by
  cases hmatch : read matchHead ts with
  | none => rfl
  | some r =>
    obtain ⟨us, colon, rfl, hus, hcolon, hstarts⟩ := read_matchHead_eq_some hproper hmatch
    obtain ⟨_, -, ys, mid, _, -, hsmall, -, _, mid₁, _, -, hmany, -, hopt⟩ := took_rule h
    obtain ⟨vs, hvs, hbalanced⟩ := smallStatement_balanced hus hproper hstarts hsmall
    -- What is left after the first statement is not empty, and no semicolon.
    have hleft : mid ≠ [] := by
      rintro rfl
      rw [List.append_nil] at hvs
      exact not_balanced_of_outside (by decide) hcolon hus hvs hbalanced
    have hsemicolon : ¬StartsWith [.word ";"] mid := by
      rintro ⟨t, mid', rfl, m, hm, haccepts⟩
      cases List.mem_singleton.mp hm
      by_cases hmid' : mid' = []
      · subst hmid'
        obtain ⟨-, hlast⟩ := List.append_inj' hvs rfl
        cases hlast
        exact absurd (word_unique hcolon haccepts) (by decide)
      · have hsplit : us ++ [colon] = (vs ++ t :: mid'.dropLast) ++ [mid'.getLast hmid'] := by
          rw [List.append_assoc, List.cons_append, List.dropLast_concat_getLast, hvs]
        exact not_balanced_of_outside (by decide) haccepts hbalanced (List.append_inj' hsplit rfl).1.symm hus
    rw [read_repeated _ (by decide), repeatAll_stop (read_eq_none (p := seq [word ";", sym smallStatement]) rfl hsemicolon)] at hmany
    cases hmany
    obtain ⟨t, rfl, ht, -⟩ | ⟨-, rfl⟩ := hopt
    · exact absurd ⟨t, [], rfl, _, List.mem_singleton_self _, ht⟩ hsemicolon
    · exact absurd rfl hleft

/-- A line that is read as small statements is read so as a line. -/
theorem read_line_of_simple (hproper : ∀ t ∈ ts, t.Proper) (h : read (sym simple) ts = some (xs, [])) :
    read (sym line) ts = some (xs, []) := by
  have hfirst : StartsWith smallFirsts ts := read_firsts (p := sym simple) rfl h
  have hapart : ∀ p : E, p.consumes takes = true → apart smallFirsts (p.firsts takes firstOf) = true →
      read p ts = none := fun p hp hms =>
    read_eq_none hp (not_startsWith_of_apart (fun t ht => hproper t (List.mem_of_mem_head? ht)) hfirst hms)
  rw [read_line, runAlt, hapart _ (by decide) (by decide), runAlt, hapart _ (by decide) (by decide), runAlt,
    read_matchHead_eq_none hproper h, runAlt, h]

/-! ## Lines that are an expression -/

theorem read_simple_of_small (h : read (sym smallStatement) ts = some (xs, [])) :
    read (sym simple) ts = some ([.node .simple xs], []) := by
  have hmany : read (many (seq [word ";", sym smallStatement])) [] = some ([], []) := by
    rw [read_repeated _ (by decide), repeatAll_stop (read_eq_none (by decide) (not_startsWith_nil _))]
  have hopt : read (opt (word ";")) [] = some ([], []) :=
    read_opt_of_none (by decide) (read_eq_none rfl (not_startsWith_nil _))
  rw [read_sym]
  change read (node .simple (seq [sym smallStatement, many (seq [word ";", sym smallStatement]), opt (word ";")])) ts = _
  rw [read_node _ (by decide), read_seq (by decide)]
  simp [runSeq, h, hmany, hopt]

/-- A primary that takes all tokens leaves none for a word after it. -/
theorem read_placed_eq_none {c : Check} {p : E} {ps : List E} (hsmall : Small (seq (only c (sym primary) :: p :: ps)))
    (hp : p.consumes takes = true) (h : read (sym primary) ts = some (xs, [])) :
    read (seq (only c (sym primary) :: p :: ps)) ts = none := by
  have hnil : read p [] = none := read_eq_none hp (not_startsWith_nil _)
  have honly : read (only c (sym primary)) ts = if c.holds xs then some (xs, []) else none := by
    rw [read_only _ (by decide), h]
    cases hholds : c.holds xs <;> simp [hholds]
  rw [read_seq hsmall, runSeq, honly]
  split
  · rfl
  · next hsome =>
    split at hsome
    · cases hsome
      simp [runSeq, hnil]
    · cases hsome

/-- No primary starts with two names. -/
theorem read_typeAlias_eq_none (hproper : ∀ t ∈ ts, t.Proper) (h : read (sym primary) ts = some (xs, [])) :
    read typeAlias ts = none := by
  cases hread : read typeAlias ts with
  | none => rfl
  | some r =>
    obtain ⟨zs, last⟩ := r
    obtain ⟨_, -, _, _, _, -, -, ⟨w, rfl, haccepts, -⟩, _, mid₂, _, -, -, ⟨n, rfl, hn, -⟩, -⟩ := took_of_read (by decide) hread
    have hatom : StartsWith atomFirsts (w :: n :: mid₂) := read_firsts (p := sym primary) rfl h
    have hw : Match.name.accepts w = true := by
      obtain ⟨t, rest, heq, m, hm, hmatch⟩ := hatom
      cases heq
      simp only [Match.accepts, Bool.and_eq_true, beq_iff_eq] at haccepts
      simp only [atomFirsts, List.mem_cons, List.not_mem_nil, or_false] at hm
      rcases hm with rfl | rfl | rfl | rfl | rfl | rfl | rfl | rfl | rfl | rfl | rfl
      case inl => exact hmatch
      all_goals simp [Match.accepts, haccepts.2] at hmatch
      all_goals simp [hmatch] at haccepts
    have hstop : runStep read primarySteps (n :: mid₂) = none := by
      have hfirst : StartsWith [.name] (n :: mid₂) := ⟨n, mid₂, rfl, _, List.mem_singleton_self _, hn⟩
      refine runStep_primary_eq_none (not_startsWith_of_apart (fun t ht => hproper t ?_) hfirst (by decide))
      cases ht
      simp
    rw [read_primary, read_atom_of_name hw, Option.map_some, extendAll_stop hstop] at h
    cases h

/-- Nothing is assigned to a call. -/
theorem read_assignment_eq_none {e : SyntaxTree} (hcall : e.is .call = true) (hproper : ∀ t ∈ ts.head?, t.Proper)
    (h : read (sym primary) ts = some ([e], [])) : read assignment ts = none := by
  have hatom : StartsWith atomFirsts ts := read_firsts (p := sym primary) rfl h
  have htarget : read (sym starTarget) ts = none := by
    have hstar : read (node .starred (seq [word "*", never (word "*"), sym starTarget])) ts = none :=
      read_eq_none (by decide) (not_startsWith_of_apart hproper hatom (by decide))
    have hholds : Check.holds .target [e] = false := by
      cases e with
      | leaf t => cases hcall
      | node k cs =>
        obtain rfl : Kind.call = k := beq_iff_eq.mp hcall
        rfl
    have honly : read (only .target (sym primary)) ts = none := by
      rw [read_only _ (by decide), h]
      simp [hholds]
    rw [read_sym]
    change read (alt [node .starred (seq [word "*", never (word "*"), sym starTarget]), only .target (sym primary)]) ts = _
    rw [read_alt (by decide), runAlt, hstar, runAlt, honly]
    rfl
  have htargets : read (sym starTargets) ts = none := by
    rw [read_sym]
    change read (extend (sym starTarget) _) ts = _
    rw [read_extendAll (by decide), htarget]
    rfl
  have hplace : read (seq [sym starTargets, word "="]) ts = none := by
    rw [read_seq (by decide), runSeq, htargets]
  rw [assignment, read_node _ (by decide), read_seq (by decide), runSeq, some1, read_seq (by decide), runSeq, hplace]
  rfl

theorem read_rightSide_of_primary (hproper : ∀ t ∈ ts.head?, t.Proper) (h : read (sym primary) ts = some (xs, [])) :
    read rightSide ts = some (xs, []) := by
  have hatom : StartsWith atomFirsts ts := read_firsts (p := sym primary) rfl h
  rw [rightSide, read_alt (by decide), runAlt, read_eq_none rfl (not_startsWith_of_apart hproper hatom (by decide)),
    runAlt, read_starExpressions_of_primary hproper h]

/-- A call is a small statement. -/
theorem read_smallStatement_of_call {e : SyntaxTree} (hcall : e.is .call = true) (hproper : ∀ t ∈ ts, t.Proper)
    (h : read (sym primary) ts = some ([e], [])) :
    read (sym smallStatement) ts = some ([.node .expression [e]], []) := by
  have hhead : ∀ t ∈ ts.head?, t.Proper := fun t ht => hproper t (List.mem_of_mem_head? ht)
  have hatom : StartsWith atomFirsts ts := read_firsts (p := sym primary) rfl h
  have hapart : ∀ p : E, p.consumes takes = true → apart atomFirsts (p.firsts takes firstOf) = true →
      read p ts = none := fun p hp hms => read_eq_none hp (not_startsWith_of_apart hhead hatom hms)
  have hannotated : read annotatedAssignment ts = none := by
    rw [annotatedAssignment, read_node _ (by decide), read_placed_eq_none (by decide) (by decide) h]
    rfl
  have haugmented : read augmentedAssignment ts = none := by
    rw [augmentedAssignment, read_node _ (by decide), read_placed_eq_none (by decide) (by decide) h]
    rfl
  have hexpression : read (node .expression rightSide) ts = some ([.node .expression [e]], []) := by
    rw [read_node _ (by decide), read_rightSide_of_primary hhead h]
    rfl
  rw [read_smallStatement, runAlt, hapart _ (by decide) (by decide), runAlt, hapart _ (by decide) (by decide), runAlt,
    read_typeAlias_eq_none hproper h, runAlt, hannotated, runAlt, read_assignment_eq_none hcall hhead h, runAlt,
    haugmented, runAlt, hexpression]

theorem Grows.read_primary {e : SyntaxTree} (h : Grows e) : read (sym primary) e.leaves = some ([e], []) := by
  have hread := h []
  rwa [List.append_nil, extendAll_stop (runStep_primary_eq_none (not_startsWith_nil _))] at hread

/-- A call is a line. -/
theorem Grows.read_line {e : SyntaxTree} (h : Grows e) (hcall : e.is .call = true) (hproper : ∀ t ∈ e.leaves, t.Proper) :
    read (sym line) e.leaves = some ([.node .simple [.node .expression [e]]], []) :=
  read_line_of_simple hproper (read_simple_of_small (read_smallStatement_of_call hcall hproper h.read_primary))

/-! ## Annotated assignments -/

/-- An expression that was read up to a colon. -/
def Annotates (e : SyntaxTree) : Prop :=
  ∃ ts, Starts ":" ts ∧ (∀ t ∈ e.leaves ++ ts, t.Proper) ∧ read (sym expression) (e.leaves ++ ts) = some ([e], ts)

theorem Annotates.spelling {e : SyntaxTree} (h : Annotates e) : Annotates e.spelling := by
  obtain ⟨ts, hts, hproper, hread⟩ := h
  exact ⟨_, Starts.spelling hts, read_before_spelling hproper hread⟩

/-- An annotation can be followed by an equals sign. -/
theorem Annotates.reads {e : SyntaxTree} (h : Annotates e) (hts : Starts "=" ts) :
    read (sym expression) (e.leaves ++ ts) = some ([e], ts) := by
  obtain ⟨us, hus, hproper, hread⟩ := h
  exact read_moved annotationBorder_sound (by decide) (by decide) (by decide) hproper hus hts hread

/-- A name, its annotation and a call are a line. -/
theorem read_annotated_line {place colon sign : Token} {note value : SyntaxTree}
    (hplace : Match.name.accepts place = true) (htype : place.text ≠ "type") (hcolon : (Match.word ":").accepts colon = true)
    (hkind : sign.kind = .operator) (hsign : sign.text = "=") (hnote : Annotates note) (hvalue : Grows value)
    (hproper : ∀ t ∈ place :: colon :: (note.leaves ++ sign :: value.leaves), t.Proper) :
    read (sym line) (place :: colon :: (note.leaves ++ sign :: value.leaves)) =
      some ([.node .simple [.node .annotated [.leaf place, .leaf colon, note, .leaf sign, value]]], []) := by
  have hright : read rightSide value.leaves = some ([value], []) :=
    read_rightSide_of_primary (fun t ht => hproper t (by simp [List.mem_of_mem_head? ht])) hvalue.read_primary
  have hequals : read (opt (seq [word "=", rightSide])) (sign :: value.leaves) = some ([.leaf sign, value], []) := by
    have haccepts : (Match.word "=").accepts sign = true := by rw [Match.accepts_eq_takes hkind hsign]; rfl
    refine read_opt_of_some (by decide) ?_
    rw [read_seq (by decide)]
    simp [runSeq, word, read_tok, haccepts, hright]
  have hnoted := hnote.reads ⟨sign, value.leaves, rfl, hkind, hsign⟩
  generalize note.leaves ++ sign :: value.leaves = rest at hproper hnoted ⊢
  have hannotated : read annotatedAssignment (place :: colon :: rest) =
      some ([.node .annotated [.leaf place, .leaf colon, note, .leaf sign, value]], []) := by
    have hsingle : read (only .annotatable (sym primary)) (place :: colon :: rest) = some ([.leaf place], colon :: rest) := by
      have hholds : Check.holds .annotatable [.leaf place] = true := hplace
      rw [read_only _ (by decide), (read_primary_name hplace hcolon (by decide)).1]
      simp [hholds]
    have hmark : read (word ":") (colon :: rest) = some ([.leaf colon], rest) :=
      read_tok_eq_some.mpr ⟨colon, rfl, hcolon, rfl⟩
    rw [annotatedAssignment, read_node _ (by decide), read_seq (by decide)]
    simp [runSeq, hsingle, hmark, hnoted, hequals]
  have hfirst : StartsWith [.name] (place :: colon :: rest) :=
    ⟨place, _, rfl, _, List.mem_singleton_self _, hplace⟩
  have hapart : ∀ p : E, p.consumes takes = true → apart [.name] (p.firsts takes firstOf) = true →
      read p (place :: colon :: rest) = none := fun p hp hms =>
    read_eq_none hp (not_startsWith_of_apart (fun t ht => hproper t (List.mem_of_mem_head? ht)) hfirst hms)
  have halias : read typeAlias (place :: colon :: rest) = none := by
    refine read_eq_none rfl ?_
    rintro ⟨t, rest, heq, m, hm, haccepts⟩
    cases heq
    have hm : m ∈ [Match.word "type"] := hm
    cases List.mem_singleton.mp hm
    simp only [Match.accepts, Bool.and_eq_true, beq_iff_eq] at haccepts
    exact htype haccepts.2
  have hsmall : read (sym smallStatement) (place :: colon :: rest) =
      some ([.node .annotated [.leaf place, .leaf colon, note, .leaf sign, value]], []) := by
    rw [read_smallStatement, runAlt, hapart _ (by decide) (by decide), runAlt, hapart _ (by decide) (by decide), runAlt,
      halias, runAlt, hannotated]
  exact read_line_of_simple hproper (read_simple_of_small hsmall)

/-! ## Heads -/

/-- A head is a line by itself. -/
theorem read_line_of_head {x : SyntaxTree} (hdecorator : ¬StartsWith [.word "@"] ts)
    (h : read head ts = some ([x], [])) : read (sym line) ts = some ([x], []) := by
  have hnone : read (node .decorator (seq [word "@", sym namedExpression])) ts = none := read_eq_none rfl hdecorator
  have hempty : read (opt (sym simple)) [] = some ([], []) :=
    read_opt_of_none (by decide) (read_eq_none rfl (not_startsWith_nil _))
  rw [read_line, runAlt, hnone, runAlt, read_seq (by decide)]
  simp [runSeq, h, hempty]

/-- The head of a function without parameters is a line. -/
theorem read_functionHead_line {name : Token} (hname : Match.name.accepts name = true) :
    read (sym line) [{ kind := .name, text := "def" }, name, { kind := .operator, text := "(" },
      { kind := .operator, text := ")" }, { kind := .operator, text := ":" }] =
    some ([.node .functionHead [.leaf { kind := .name, text := "def" }, .leaf name,
      .node .parameters [.ofOperator "(", .ofOperator ")"], .ofOperator ":"]], []) := by
  have hother : ∀ (p : E) ts, p.consumes takes = true → (p.firsts takes firstOf).all (isOtherWord "def") = true →
      read p ({ kind := .name, text := "def" } :: ts) = none := fun p ts hp hall =>
    read_eq_none hp (not_startsWith_of_word (w := "def") rfl hall)
  have hcalled : ∀ ts, read Peg.name (name :: ts) = some ([.leaf name], ts) := fun ts =>
    read_tok_eq_some.mpr ⟨name, rfl, hname, rfl⟩
  have hafter : runSeq read [opt (sym typeParameters), node .parameters (seq [Peg.word "(", sym parameters, Peg.word ")"]),
      opt (node .returns (seq [Peg.word "->", sym expression])), Peg.word ":"]
      [{ kind := .operator, text := "(" }, { kind := .operator, text := ")" }, { kind := .operator, text := ":" }] =
      some ([.node .parameters [.ofOperator "(", .ofOperator ")"], .ofOperator ":"], []) := rfl
  refine read_line_of_head (not_startsWith_of_word (w := "def") rfl (by decide)) ?_
  rw [head, read_alt (by decide), runAlt, hother _ _ (by decide) (by decide), runAlt, read_node _ (by decide),
    read_seq (by decide), runSeq_cons_eq_some.mpr ⟨[], _, _, read_opt_of_none (by decide) (hother _ _ rfl rfl),
      runSeq_cons_eq_some.mpr ⟨_, _, _, rfl, runSeq_cons_eq_some.mpr ⟨_, _, _, hcalled _, hafter, rfl⟩, rfl⟩, rfl⟩]
  rfl

theorem runSeq_append {f : E → List Token → Read} {ps qs : List E} {ys zs : List SyntaxTree}
    (hps : runSeq f ps ts = some (ys, mid)) (hqs : runSeq f qs mid = some (zs, rest)) :
    runSeq f (ps ++ qs) ts = some (ys ++ zs, rest) := by
  induction ps generalizing ts ys with
  | nil =>
    cases hps
    exact hqs
  | cons p ps ih =>
    obtain ⟨us, mid', vs, hp, hmore, rfl⟩ := runSeq_cons_eq_some.mp hps
    exact runSeq_cons_eq_some.mpr ⟨us, mid', vs ++ zs, hp, ih hmore, List.append_assoc ..⟩

/-- What stands before the colon of a class head. -/
def classParts : List E :=
  [word "class", name, opt (sym typeParameters), opt (node .bases (seq [word "(", sym .arguments, word ")"]))]

/-- What stands before the colon of a class head stops there, with whatever follows. -/
theorem headBorder_sound : Border.Sound takes inside rules ⟨":", ":", false, fun s => s == typeParameters⟩ := by
  intro s
  cases s <;> decide

/-- A line is a decorator, a head, perhaps with small statements after it, the head of a `match`, or small statements. -/
theorem read_line_cases (h : read (sym line) ts = some (xs, [])) :
    (∃ t us e, ts = t :: us ∧ xs = [.node .decorator [.leaf t, e]] ∧ read (sym namedExpression) us = some ([e], [])) ∨
      (∃ x mid, Took head ts [x] mid ∧ (xs = [x] ∨ ∃ y, xs = [x, y] ∧ read (sym simple) mid = some ([y], []))) ∨
      (∃ cs, xs = [.node .matchHead cs]) ∨ ∃ x, xs = [x] ∧ read (sym simple) ts = some ([x], []) := by
  rcases took_rule h with ⟨_, rfl, _, us, _, rfl, -, ⟨t, rfl, -, rfl⟩, hnamed⟩ |
    ⟨ys, mid, zs, rfl, hread, hhead, hbody | ⟨rfl, -⟩⟩ | ⟨_, _, _, rfl, -, ⟨cs, rfl, -⟩, rfl, -, -⟩ | hsimple
  · obtain ⟨e, rfl⟩ := read_single rfl hnamed
    exact .inl ⟨t, us, e, rfl, rfl, hnamed⟩
  · obtain ⟨x, rfl⟩ := read_single (p := head) rfl hread
    obtain ⟨y, rfl⟩ := read_single (p := sym simple) rfl hbody
    exact .inr (.inl ⟨x, mid, hhead, .inr ⟨y, rfl, hbody⟩⟩)
  · obtain ⟨x, rfl⟩ := read_single (p := head) rfl hread
    exact .inr (.inl ⟨x, mid, hhead, .inl rfl⟩)
  · exact .inr (.inr (.inl ⟨cs, rfl⟩))
  · obtain ⟨x, rfl⟩ := read_single (p := sym simple) rfl hsimple
    exact .inr (.inr (.inr ⟨x, rfl, hsimple⟩))

/-- A line that gives two trees is a head with small statements after it. -/
theorem read_line_pair {x y : SyntaxTree} (h : read (sym line) ts = some ([x, y], [])) :
    ∃ mid, Took head ts [x] mid ∧ read (sym simple) mid = some ([y], []) := by
  obtain ⟨_, _, _, -, heq, -⟩ | ⟨x', mid, hhead, heq | ⟨y', heq, hbody⟩⟩ | ⟨cs, heq⟩ | ⟨x', heq, -⟩ := read_line_cases h <;>
    cases heq
  exact ⟨mid, hhead, hbody⟩

/-- No head is that of a decorator. -/
theorem not_took_decorator : ¬Took head ts [.node .decorator cs] rest := by
  rintro (⟨_, h, -⟩ | ⟨_, h, -⟩ | ⟨_, h, -⟩ | ⟨_, h, -⟩ | ⟨_, h, -⟩ | ⟨_, h, -⟩ | ⟨_, h, -⟩ | ⟨_, h, -⟩ | ⟨_, h, -⟩ |
    ⟨_, h, -⟩ | ⟨_, h, -⟩ | ⟨_, h, -⟩) <;> cases h

/-- The head of a class was read by the rule for it. -/
theorem took_classHead (h : Took head ts [.node .classHead cs] rest) : TookAll (classParts ++ [word ":"]) ts cs rest := by
  rcases h with ⟨_, h, hparts⟩ | ⟨_, h, -⟩ | ⟨_, h, -⟩ | ⟨_, h, -⟩ | ⟨_, h, -⟩ | ⟨_, h, -⟩ | ⟨_, h, -⟩ | ⟨_, h, -⟩ |
    ⟨_, h, -⟩ | ⟨_, h, -⟩ | ⟨_, h, -⟩ | ⟨_, h, -⟩ <;> cases h
  exact hparts

/-- What the head of a class is made of: `class`, a name, perhaps type parameters, perhaps bases that can be moved, and a
colon. -/
def ClassShape (cs : List SyntaxTree) : Prop :=
  ∃ word name types bases colon, cs = .leaf word :: .leaf name :: (types ++ bases ++ [.leaf colon]) ∧
    Match.name.accepts name = true ∧ (types = [] ∨ ∃ ds, types = [.node .typeParameters ds]) ∧
    (bases = [] ∨ ∃ opening as closing, bases = [.node .bases (.leaf opening :: (as ++ [.leaf closing]))] ∧
      ∀ a ∈ as, ∀ v, a.argument? = some (.positional v) → Excerpt v)

theorem typeParameters_of_took {ys : List SyntaxTree} (h : Took (opt (sym typeParameters)) ts ys rest) :
    ys = [] ∨ ∃ ds, ys = [.node .typeParameters ds] := by
  obtain hread | ⟨rfl, -⟩ := h
  · obtain ⟨ds, rfl, -⟩ := took_rule hread
    exact .inr ⟨ds, rfl⟩
  · exact .inl rfl

theorem classShape_of_took (hproper : ∀ t ∈ ts, t.Proper) (h : Took head ts [.node .classHead cs] rest) :
    ClassShape cs := by
  obtain ⟨_, _, _, rfl, -, ⟨word, rfl, -, rfl⟩, _, _, _, rfl, -, ⟨name, rfl, hname, rfl⟩, types, mid, _, rfl, hread, htypes,
    bases, _, _, rfl, -, hbases, colon, -, -, rfl⟩ := took_classHead h
  refine ⟨word, name, types, bases, colon, by simp, hname, typeParameters_of_took htypes, ?_⟩
  obtain ⟨_, rfl, _, us, _, rfl, -, ⟨opening, rfl, -, rfl⟩, as, _, _, rfl, -, has, closing, -, -, rfl⟩ | ⟨rfl, -⟩ := hbases
  · refine .inr ⟨opening, as, closing, rfl, fun a ha v hv => base_excerpt (fun t ht => hproper t ?_) has ha hv⟩
    have hmem := (read_suffix hread).subset (List.mem_cons_of_mem _ ht)
    exact List.mem_cons_of_mem _ (List.mem_cons_of_mem _ hmem)
  · exact .inl rfl

/-- What the head of a function is made of: perhaps `async`, `def`, a name, perhaps type parameters, parameters in
parentheses, perhaps an annotation that can be moved, and a colon. -/
def FunctionShape (cs : List SyntaxTree) : Prop :=
  ∃ async word name types opening ps closing arrow colon,
    cs = async ++ .leaf word :: .leaf name ::
      (types ++ .node .parameters (.leaf opening :: (ps ++ [.leaf closing])) :: (arrow ++ [.leaf colon])) ∧
    (async = [] ∨ ∃ t, async = [.leaf t]) ∧ Match.name.accepts name = true ∧
    (types = [] ∨ ∃ ds, types = [.node .typeParameters ds]) ∧
    (arrow = [] ∨ ∃ sign e, arrow = [.node .returns [.leaf sign, e]] ∧ Annotates e)

/-- What stands after an arrow can be moved. -/
theorem annotates_of_arrow {colon : Token} (hproper : ∀ t ∈ ts, t.Proper) (hcolon : (Match.word ":").accepts colon = true)
    (h : Took (opt (node .returns (seq [word "->", sym expression]))) ts xs (colon :: rest)) :
    xs = [] ∨ ∃ sign e, xs = [.node .returns [.leaf sign, e]] ∧ Annotates e := by
  obtain ⟨_, rfl, _, us, _, rfl, -, ⟨sign, rfl, -, rfl⟩, hnote⟩ | ⟨rfl, -⟩ := h
  · obtain ⟨e, rfl⟩ := read_single rfl hnote
    have hus := (List.forall_mem_cons.mp hproper).2
    have hsplit := read_leaves hnote
    subst hsplit
    exact .inr ⟨sign, e, rfl, _, ⟨colon, rest, rfl, operator_of_accepts (hus colon (by simp)) (by decide) hcolon⟩, hus,
      hnote⟩
  · exact .inl rfl

theorem functionShape_of_took (hproper : ∀ t ∈ ts, t.Proper) (h : Took head ts [.node .functionHead cs] rest) :
    FunctionShape cs := by
  rcases h with ⟨_, h, -⟩ | ⟨_, h, async, _, _, rfl, hasync, hopt, _, _, _, rfl, -, ⟨word, rfl, -, rfl⟩, _, _, _, rfl, -,
    ⟨name, rfl, hname, rfl⟩, types, _, _, rfl, hread, htypes, _, _, _, rfl, hparameters, ⟨_, rfl, _, us, _, rfl, -,
    ⟨opening, -, -, rfl⟩, ps, _, _, rfl, -, -, closing, -, -, rfl⟩, arrow, _, _, rfl, -, harrow, colon, rfl, hsign, rfl⟩ |
    ⟨_, h, -⟩ | ⟨_, h, -⟩ | ⟨_, h, -⟩ | ⟨_, h, -⟩ | ⟨_, h, -⟩ | ⟨_, h, -⟩ | ⟨_, h, -⟩ | ⟨_, h, -⟩ | ⟨_, h, -⟩ |
    ⟨_, h, -⟩ <;> cases h
  refine ⟨async, word, name, types, opening, ps, closing, arrow, colon, by simp, ?_, hname, typeParameters_of_took htypes, ?_⟩
  · obtain ⟨t, -, -, rfl⟩ | ⟨rfl, -⟩ := hopt
    · exact .inr ⟨t, rfl⟩
    · exact .inl rfl
  · refine annotates_of_arrow (fun t ht => hproper t ?_) hsign harrow
    have htyped := (read_suffix hread).subset ((read_suffix hparameters).subset ht)
    exact (read_suffix hasync).subset (List.mem_cons_of_mem _ (List.mem_cons_of_mem _ htyped))

/-- The head of a class with a body on its line is read by itself. -/
theorem read_classHead_line {body : SyntaxTree} (hproper : ∀ t ∈ ts, t.Proper)
    (h : read (sym line) ts = some ([.node .classHead cs, body], [])) :
    read (sym line) (leavesAll cs) = some ([.node .classHead cs], []) ∧ read (sym simple) body.leaves = some ([body], []) := by
  obtain ⟨mid, hhead, hbody⟩ := read_line_pair h
  obtain ⟨ys₁, _, _, rfl, h₁, -, ys₂, _, _, rfl, h₂, -, ys₃, _, _, rfl, h₃, -, ys₄, _, _, rfl, h₄, -, colon, rfl, haccepts,
    rfl⟩ := took_classHead hhead
  have hparts : read (seq classParts) ts = some (ys₁ ++ (ys₂ ++ (ys₃ ++ ys₄)), colon :: mid) := by
    rw [classParts, read_seq (by decide)]
    simp [runSeq, h₁, h₂, h₃, h₄]
  rw [show ys₁ ++ (ys₂ ++ (ys₃ ++ (ys₄ ++ [leaf colon]))) = ys₁ ++ (ys₂ ++ (ys₃ ++ ys₄)) ++ [leaf colon] by simp]
  generalize ys₁ ++ (ys₂ ++ (ys₃ ++ ys₄)) = ys at hparts
  obtain ⟨us, rfl, hbalanced⟩ := read_balanced false (by decide) hproper hparts
  have hys : leavesAll ys = us := List.append_cancel_right (run_lossless hparts)
  have hoperator := operator_of_accepts (hproper colon (by simp)) (by decide) haccepts
  -- The parts before the colon are read the same with nothing after it.
  have halone : read (seq classParts) (us ++ [colon]) = some (ys, [colon]) :=
    read_moved headBorder_sound (by decide) (by decide) (by decide) hproper ⟨colon, _, rfl, hoperator⟩
      ⟨colon, [], rfl, hoperator⟩ hparts
  have hclass : read (node .classHead (seq (classParts ++ [word ":"]))) (us ++ [colon]) =
      some ([.node .classHead (ys ++ [.leaf colon])], []) := by
    have hsign : read (word ":") [colon] = some ([.leaf colon], []) := read_tok_eq_some.mpr ⟨colon, rfl, haccepts, rfl⟩
    have hseq : read (seq (classParts ++ [word ":"])) (us ++ [colon]) = some (ys ++ [.leaf colon], []) := by
      rw [read_seq (by decide)]
      rw [read_seq (by decide)] at halone
      exact runSeq_append halone (by simp [runSeq, hsign])
    rw [read_node _ (by decide), hseq]
    rfl
  have hheadAlone : read head (us ++ [colon]) = some ([.node .classHead (ys ++ [.leaf colon])], []) := by
    rw [head, read_alt (by decide)]
    change runAlt read (node .classHead (seq (classParts ++ [word ":"])) :: _) _ = _
    rw [runAlt, hclass]
  have hdecorator : ¬StartsWith [.word "@"] (us ++ [colon]) := by
    have hfirst : StartsWith [.word "class"] (us ++ [colon]) := read_firsts (p := seq classParts) (by decide) halone
    refine not_startsWith_of_apart (fun t ht => hproper t ?_) hfirst (by decide)
    rcases List.mem_append.mp (List.mem_of_mem_head? ht) with hmem | hmem
    · exact List.mem_append_left _ hmem
    · exact List.mem_append_right _ (List.mem_cons.mpr (.inl (List.mem_singleton.mp hmem)))
  refine ⟨?_, (List.append_nil _).symm.trans (read_leaves hbody) ▸ hbody⟩
  have hleaves : leavesAll (ys ++ [.leaf colon]) = us ++ [colon] := by
    rw [leavesAll_append, hys]
    rfl
  rw [hleaves]
  exact read_line_of_head hdecorator hheadAlone

end

end Grammar

end Conformance.Source
