import Conformance.Proofs.Grammar.Context
import Conformance.Proofs.Grammar.First

/-!
# Levels of precedence

An expression is read through a level for each precedence, from `namedExpression` down to `primary`.  A name, call or
other primary that no operator follows passes all of them (`read_namedExpression_of_primary`).
-/

namespace Conformance.Source

namespace Grammar

open Peg Nonterminal

/-! ## Parts -/

theorem read_tok_eq_some {m : Match} {ts rest : List Token} {xs : List SyntaxTree} :
    read (tok m) ts = some (xs, rest) ↔ ∃ t, ts = t :: rest ∧ m.accepts t = true ∧ xs = [.leaf t] := by
  constructor
  · intro h
    have hderives : Derives rules (tok m) ts xs rest := run_derives h
    cases hderives with
    | tok haccepts => exact ⟨_, rfl, haccepts, rfl⟩
  · rintro ⟨t, rfl, haccepts, rfl⟩
    rw [read_tok, haccepts]
    rfl

theorem word_unique {a b : String} {t : Token} (ha : (Match.word a).accepts t = true)
    (hb : (Match.word b).accepts t = true) : a = b := by
  simp only [Match.accepts, Bool.and_eq_true, beq_iff_eq] at ha hb
  exact ha.2.symm.trans hb.2

/-! ## Steps -/

/-- Steps that take a token each. -/
abbrev Consuming (steps : List (Kind × E)) : Prop := ∀ s ∈ steps, s.2.consumes takes = true

/-- Goes on with steps as long as there are any. -/
def extendAll (steps : List (Kind × E)) (xs : List SyntaxTree) (ts : List Token) : List SyntaxTree × List Token :=
  runExtend read steps ts.length xs ts

section
variable {steps : List (Kind × E)} {xs ys : List SyntaxTree} {ts rest : List Token} {k : Kind}

theorem runStep_lt (hsteps : Consuming steps) (h : runStep read steps ts = some (k, ys, rest)) :
    rest.length < ts.length := by
  obtain ⟨p, hp, hread⟩ := runStep_eq_some h
  exact (read_progresses _ _ _ _ hread).2 (hsteps _ hp)

/-- A bound on the steps that is no less than the number of tokens does not matter. -/
theorem runExtend_eq_extendAll (hsteps : Consuming steps) (xs : List SyntaxTree) {n : Nat} (hn : ts.length ≤ n) :
    runExtend read steps n xs ts = extendAll steps xs ts := by
  have hsame : ∀ (n m : Nat) (xs : List SyntaxTree) (ts : List Token), ts.length ≤ n → ts.length ≤ m →
      runExtend read steps n xs ts = runExtend read steps m xs ts := by
    intro n
    induction n with
    | zero =>
      intro m xs ts hn hm
      cases m with
      | zero => rfl
      | succ m =>
        cases hstep : runStep read steps ts with
        | none => simp only [runExtend, hstep]
        | some r =>
          obtain ⟨k, ys, rest⟩ := r
          have := runStep_lt hsteps hstep
          omega
    | succ n ih =>
      intro m xs ts hn hm
      cases hstep : runStep read steps ts with
      | none => cases m <;> simp only [runExtend, hstep]
      | some r =>
        obtain ⟨k, ys, rest⟩ := r
        have hlt := runStep_lt hsteps hstep
        cases m with
        | zero => omega
        | succ m =>
          simp only [runExtend, hstep]
          exact ih m _ _ (by omega) (by omega)
  exact hsame _ _ xs ts hn (Nat.le_refl _)

theorem extendAll_stop (h : runStep read steps ts = none) : extendAll steps xs ts = (xs, ts) := by
  unfold extendAll
  cases ts.length with
  | zero => rfl
  | succ n => simp only [runExtend, h]

theorem extendAll_step (hsteps : Consuming steps) (h : runStep read steps ts = some (k, ys, rest)) :
    extendAll steps xs ts = extendAll steps [.node k (xs ++ ys)] rest := by
  have hlt := runStep_lt hsteps h
  rw [extendAll]
  cases hlength : ts.length with
  | zero => omega
  | succ n =>
    simp only [runExtend, h]
    exact runExtend_eq_extendAll hsteps _ (by omega)

/-- Steps leave what there was, or make a group of the kind of one of them. -/
theorem extendAll_kind (hsteps : Consuming steps) {zs : List SyntaxTree} (h : extendAll steps xs ts = (zs, rest)) :
    (zs = xs ∧ rest = ts) ∨ ∃ s ∈ steps, ∃ cs, zs = [.node s.1 cs] := by
  induction hlength : ts.length using Nat.strongRecOn generalizing xs ts with
  | ind n ih =>
    cases hstep : runStep read steps ts with
    | none =>
      rw [extendAll_stop hstep] at h
      cases h
      exact .inl ⟨rfl, rfl⟩
    | some r =>
      obtain ⟨k, ys, mid⟩ := r
      rw [extendAll_step hsteps hstep] at h
      have hlt := runStep_lt hsteps hstep
      rcases ih mid.length (by omega) h rfl with ⟨rfl, -⟩ | hkind
      · obtain ⟨p, hp, -⟩ := runStep_eq_some hstep
        exact .inr ⟨_, hp, _, rfl⟩
      · exact .inr hkind

theorem read_extendAll {p : E} (hsmall : Small (extend p steps)) (ts : List Token) :
    read (extend p steps) ts = (read p ts).map fun r => extendAll steps r.1 r.2 := by
  have hsteps : Consuming steps := List.all_eq_true.mp (Bool.and_eq_true_iff.mp (check_of_every hsmall)).2
  rw [read_extend hsmall]
  refine Option.map_congr fun r hread => ?_
  exact runExtend_eq_extendAll hsteps _ (read_progresses p ts r.1 r.2 hread).1

theorem runStep_eq_none (hsteps : Consuming steps) (h : ¬StartsWith (firstsSteps takes firstOf steps) ts) :
    runStep read steps ts = none := by
  cases hstep : runStep read steps ts with
  | none => rfl
  | some r =>
    obtain ⟨p, hp, hread⟩ := runStep_eq_some hstep
    exact absurd ((read_firsts (hsteps _ hp) hread).mono (firsts_subset_firstsSteps hp)) h

end

/-! ## What was read -/

mutual

/-- How an expression was read, as far as to its symbols, repetitions and steps. -/
def Took : E → List Token → List SyntaxTree → List Token → Prop
  | tok m, ts, xs, rest => ∃ t, ts = t :: rest ∧ m.accepts t = true ∧ xs = [.leaf t]
  | sym s, ts, xs, rest => read (sym s) ts = some (xs, rest)
  | seq ps, ts, xs, rest => TookAll ps ts xs rest
  | alt ps, ts, xs, rest => TookOne ps ts xs rest
  | many p, ts, xs, rest => read (many p) ts = some (xs, rest)
  | ahead p, ts, xs, rest => xs = [] ∧ rest = ts ∧ ∃ ys mid, Took p ts ys mid
  | never _, ts, xs, rest => xs = [] ∧ rest = ts
  | stop, ts, xs, rest => xs = [] ∧ rest = [] ∧ ts = []
  | node k p, ts, xs, rest => ∃ cs, xs = [.node k cs] ∧ Took p ts cs rest
  | build s p, ts, xs, rest => ∃ cs, xs = [.node (s.kind cs) cs] ∧ Took p ts cs rest
  | only _ p, ts, xs, rest => Took p ts xs rest
  | extend p steps, ts, xs, rest => ∃ ys mid, Took p ts ys mid ∧ extendAll steps ys mid = (xs, rest)

def TookAll : List E → List Token → List SyntaxTree → List Token → Prop
  | [], ts, xs, rest => xs = [] ∧ rest = ts
  | [p], ts, xs, rest => Took p ts xs rest
  | p :: q :: ps, ts, xs, rest =>
    ∃ ys mid zs, xs = ys ++ zs ∧ read p ts = some (ys, mid) ∧ Took p ts ys mid ∧ TookAll (q :: ps) mid zs rest

def TookOne : List E → List Token → List SyntaxTree → List Token → Prop
  | [], _, _, _ => False
  | [p], ts, xs, rest => Took p ts xs rest
  | p :: q :: ps, ts, xs, rest => Took p ts xs rest ∨ TookOne (q :: ps) ts xs rest

end

mutual

theorem took_of_read {p : E} (hp : Small p) {ts rest : List Token} {xs : List SyntaxTree}
    (h : read p ts = some (xs, rest)) : Took p ts xs rest := by
  cases p with
  | tok m => exact read_tok_eq_some.mp h
  | sym s | many p => exact h
  | seq ps =>
    rw [read_seq hp] at h
    exact tookAll_of_read (everyPart_iff.mp (Bool.and_eq_true_iff.mp hp).2) h
  | alt ps =>
    rw [read_alt hp] at h
    exact tookOne_of_read (everyPart_iff.mp (Bool.and_eq_true_iff.mp hp).2) h
  | ahead p =>
    have hp := (Bool.and_eq_true_iff.mp hp).2
    rw [read_ahead hp] at h
    obtain ⟨⟨ys, mid⟩, hread, heq⟩ := Option.map_eq_some_iff.mp h
    cases heq
    exact ⟨rfl, rfl, ys, mid, took_of_read hp hread⟩
  | never p =>
    rw [read_never (Bool.and_eq_true_iff.mp hp).2] at h
    split at h <;> cases h
    exact ⟨rfl, rfl⟩
  | stop =>
    rw [read_stop] at h
    split at h <;> cases h
    next hempty => exact ⟨rfl, List.isEmpty_iff.mp hempty, List.isEmpty_iff.mp hempty⟩
  | node k p =>
    have hp := (Bool.and_eq_true_iff.mp hp).2
    rw [read_node k hp] at h
    obtain ⟨⟨cs, mid⟩, hread, heq⟩ := Option.map_eq_some_iff.mp h
    cases heq
    exact ⟨cs, rfl, took_of_read hp hread⟩
  | build s p =>
    have hp := (Bool.and_eq_true_iff.mp hp).2
    rw [read_build s hp] at h
    obtain ⟨⟨cs, mid⟩, hread, heq⟩ := Option.map_eq_some_iff.mp h
    cases heq
    exact ⟨cs, rfl, took_of_read hp hread⟩
  | only c p =>
    have hp := (Bool.and_eq_true_iff.mp hp).2
    rw [read_only c hp] at h
    exact took_of_read hp (Option.filter_eq_some_iff.mp h).1
  | extend p steps =>
    rw [read_extendAll hp] at h
    obtain ⟨⟨ys, mid⟩, hread, heq⟩ := Option.map_eq_some_iff.mp h
    exact ⟨ys, mid, took_of_read (Bool.and_eq_true_iff.mp (Bool.and_eq_true_iff.mp hp).2).1 hread, heq⟩

theorem tookAll_of_read {ps : List E} (hps : ∀ p ∈ ps, Small p) {ts rest : List Token} {xs : List SyntaxTree}
    (h : runSeq read ps ts = some (xs, rest)) : TookAll ps ts xs rest := by
  match ps with
  | [] =>
    cases h
    exact ⟨rfl, rfl⟩
  | [p] =>
    obtain ⟨ys, mid, zs, hp, hnil, rfl⟩ := runSeq_cons_eq_some.mp h
    cases hnil
    rw [List.append_nil]
    exact took_of_read (hps p List.mem_cons_self) hp
  | p :: q :: ps =>
    obtain ⟨ys, mid, zs, hp, hmore, rfl⟩ := runSeq_cons_eq_some.mp h
    exact ⟨ys, mid, zs, rfl, hp, took_of_read (hps p List.mem_cons_self) hp,
      tookAll_of_read (fun r hr => hps r (List.mem_cons_of_mem _ hr)) hmore⟩

theorem tookOne_of_read {ps : List E} (hps : ∀ p ∈ ps, Small p) {ts rest : List Token} {xs : List SyntaxTree}
    (h : runAlt read ps ts = some (xs, rest)) : TookOne ps ts xs rest := by
  match ps with
  | [] => cases h
  | p :: ps =>
    rw [runAlt] at h
    split at h
    · next hread =>
      cases h
      have hfirst := took_of_read (hps p List.mem_cons_self) hread
      cases ps with
      | nil => exact hfirst
      | cons q ps => exact .inl hfirst
    · have hmore := tookOne_of_read (fun r hr => hps r (List.mem_cons_of_mem _ hr)) h
      cases ps with
      | nil => exact hmore.elim
      | cons q ps => exact .inr hmore

end

/-- What was read by a symbol was read by its expression. -/
theorem took_rule {s : Nonterminal} {ts rest : List Token} {xs : List SyntaxTree}
    (h : read (sym s) ts = some (xs, rest)) : Took (rules s) ts xs rest :=
  took_of_read (within_rules s) ((read_sym s ts).symm.trans h)

/-! ## Up -/

/-- The words that go on with an operand. -/
def continuations : List Match :=
  [.word "if", .word "or", .word "and", .word "==", .word "!=", .word "<=", .word "<", .word ">=", .word ">",
   .word "not", .word "in", .word "is", .word "|", .word "^", .word "&", .word "<<", .word ">>", .word "+", .word "-",
   .word "*", .word "/", .word "//", .word "%", .word "@", .word "**"]

/-- Tokens that go on with no operand. -/
def Quiet (ts : List Token) : Prop := ¬StartsWith continuations ts

/-- Tokens that start with an operator start with nothing that does not take it. -/
theorem not_startsWith_of_starts {s : String} {ts : List Token} {ms : List Match} (h : Starts s ts)
    (hms : (ms.all fun m => !m.takes s) = true) : ¬StartsWith ms ts := by
  rintro ⟨t, rest, rfl, m, hm, haccepts⟩
  obtain ⟨t', rest', heq, hkind, htext⟩ := h
  cases heq
  rw [Match.accepts_eq_takes hkind htext] at haccepts
  simpa [haccepts] using List.all_eq_true.mp hms m hm

theorem not_startsWith_nil (ms : List Match) : ¬StartsWith ms [] := by
  rintro ⟨t, rest, h, -⟩
  cases h

/-- Whether a token that is matched is not the word. -/
def excludes (w : String) : Match → Bool
  | .word v => v != w
  | .name => (keywords ++ punctuation).contains w
  | .kind k => k != .name && k != .operator

theorem not_accepts_of_excludes {m : Match} {w : String} {t : Token} (ht : t.Proper) (haccepts : m.accepts t = true)
    (h : excludes w m = true) : (Match.word w).accepts t = false := by
  rw [Bool.eq_false_iff]
  intro hword
  cases m with
  | word v =>
    cases word_unique haccepts hword
    simp [excludes] at h
  | name =>
    simp only [Match.accepts, Bool.and_eq_true, Bool.not_eq_true', beq_iff_eq] at haccepts hword
    obtain ⟨hkind, hkeyword⟩ := haccepts
    rcases List.mem_append.mp (List.contains_iff_mem.mp h) with hmem | hmem
    · rw [hword.2, List.contains_iff_mem.mpr hmem] at hkeyword
      cases hkeyword
    · exact ht hkind (hword.2 ▸ hmem)
  | kind k =>
    simp only [Match.accepts, Bool.and_eq_true, Bool.or_eq_true, beq_iff_eq] at haccepts hword
    rcases hword.1 with hkind | hkind <;> rw [← haccepts, hkind] at h <;> cases h

/-- Whether the latter are words, and no token that one of the former takes is one of them. -/
def apart (ms ms' : List Match) : Bool :=
  ms'.all fun m' => match m' with
    | .word w => ms.all (excludes w)
    | .name => false
    | .kind _ => false

theorem not_startsWith_of_apart {ts : List Token} {ms ms' : List Match} (hproper : ∀ t ∈ ts.head?, t.Proper)
    (h : StartsWith ms ts) (hapart : apart ms ms' = true) : ¬StartsWith ms' ts := by
  rintro ⟨t, rest, rfl, m', hm', haccepts'⟩
  obtain ⟨t', rest', heq, m, hm, haccepts⟩ := h
  cases heq
  have hexcludes := List.all_eq_true.mp hapart m' hm'
  cases m' with
  | word w =>
    rw [not_accepts_of_excludes (hproper t rfl) haccepts (List.all_eq_true.mp hexcludes m hm)] at haccepts'
    cases haccepts'
  | name => cases hexcludes
  | kind k => cases hexcludes

section
variable {operand : Nonterminal} {steps : List (Kind × E)} {ts rest : List Token} {xs : List SyntaxTree}

theorem climb (level : Nonterminal) (hrule : rules level = extend (sym operand) steps)
    (hsmall : Small (extend (sym operand) steps)) (hsteps : Consuming steps) (hfirsts : firstsSteps takes firstOf steps ⊆ continuations)
    (h : read (sym operand) ts = some (xs, rest)) (hrest : Quiet rest) : read (sym level) ts = some (xs, rest) := by
  rw [read_sym, hrule, read_extendAll hsmall, h]
  have hnone : runStep read steps rest = none := runStep_eq_none hsteps fun hstarts => hrest (hstarts.mono hfirsts)
  exact congrArg some (extendAll_stop hnone)

theorem climb_alt (level : Nonterminal) {p : E} (hrule : rules level = alt [p, sym operand])
    (hsmall : Small (alt [p, sym operand])) (hp : p.consumes takes = true) (hfirsts : apart atomFirsts (p.firsts takes firstOf) = true)
    (hproper : ∀ t ∈ ts.head?, t.Proper) (hatom : StartsWith atomFirsts ts) (h : read (sym operand) ts = some (xs, rest)) :
    read (sym level) ts = some (xs, rest) := by
  have hnone : read p ts = none := read_eq_none hp (not_startsWith_of_apart hproper hatom hfirsts)
  rw [read_sym, hrule, read_alt hsmall]
  simp only [runAlt, hnone, h]

/-- A primary that no operator follows is a disjunction. -/
theorem read_disjunction_of_primary (hproper : ∀ t ∈ ts.head?, t.Proper) (h : read (sym primary) ts = some (xs, rest))
    (hrest : Quiet rest) : read (sym disjunction) ts = some (xs, rest) := by
  have hatom : StartsWith atomFirsts ts := read_firsts (p := sym primary) rfl h
  have hawaited : read (sym awaited) ts = some (xs, rest) :=
    climb_alt _ rfl (by decide) rfl (by decide) hproper hatom h
  have hpower := climb power rfl (by decide) (by decide) (by decide) hawaited hrest
  have hfactor : read (sym factor) ts = some (xs, rest) :=
    climb_alt _ rfl (by decide) (by decide) (by decide) hproper hatom hpower
  have hterm := climb term rfl (by decide) (by decide) (by decide) hfactor hrest
  have hsum := climb sum rfl (by decide) (by decide) (by decide) hterm hrest
  have hshift := climb shift rfl (by decide) (by decide) (by decide) hsum hrest
  have hbitAnd := climb bitAnd rfl (by decide) (by decide) (by decide) hshift hrest
  have hbitXor := climb bitXor rfl (by decide) (by decide) (by decide) hbitAnd hrest
  have hbitOr := climb bitOr rfl (by decide) (by decide) (by decide) hbitXor hrest
  have hcomparison := climb comparison rfl (by decide) (by decide) (by decide) hbitOr hrest
  have hinversion : read (sym inversion) ts = some (xs, rest) :=
    climb_alt _ rfl (by decide) (by decide) (by decide) hproper hatom hcomparison
  have hconjunction := climb conjunction rfl (by decide) (by decide) (by decide) hinversion hrest
  exact climb disjunction rfl (by decide) (by decide) (by decide) hconjunction hrest

theorem read_expression_of_primary (hproper : ∀ t ∈ ts.head?, t.Proper) (h : read (sym primary) ts = some (xs, rest))
    (hrest : Quiet rest) : read (sym expression) ts = some (xs, rest) := by
  have hatom : StartsWith atomFirsts ts := read_firsts (p := sym primary) rfl h
  have hlambda : read (sym lambda) ts = none :=
    read_eq_none rfl (not_startsWith_of_apart hproper hatom (by decide))
  have hdisjunction := read_disjunction_of_primary hproper h hrest
  have hstop : ∀ steps, Consuming steps → firstsSteps takes firstOf steps ⊆ continuations →
      extendAll steps xs rest = (xs, rest) := fun steps hsteps hfirsts =>
    extendAll_stop (runStep_eq_none hsteps fun hstarts => hrest (hstarts.mono hfirsts))
  rw [read_sym]
  change read (alt [sym lambda, extend (sym disjunction) _]) ts = _
  rw [read_alt (by decide), runAlt, hlambda, runAlt, read_extendAll (by decide), hdisjunction]
  refine congrArg some (hstop _ ?_ ?_) <;> decide

theorem read_atom_of_name {t : Token} (ht : Match.name.accepts t = true) (ts : List Token) :
    read (sym atom) (t :: ts) = some ([.leaf t], ts) := by
  rw [read_sym]
  change read (alt (tok .name :: _)) (t :: ts) = _
  rw [read_alt (by decide), runAlt, read_tok, ht]
  rfl

/-- The steps from an atom to a primary. -/
def primarySteps : List (Kind × E) :=
  [(.member, seq [word ".", name]), (.call, seq [word "(", sym callArguments, word ")"]),
   (.subscript, seq [word "[", sym slices, word "]"])]

theorem read_primary (ts : List Token) :
    read (sym primary) ts = (read (sym atom) ts).map fun r => extendAll primarySteps r.1 r.2 := by
  rw [read_sym]
  exact read_extendAll (by decide) ts

/-- Where a name and a word stand, they are what is read. -/
theorem read_nameAhead_eq_some {w : String} (h : read (seq [name, word w]) ts = some (xs, rest)) :
    ∃ n t, ts = n :: t :: rest ∧ Match.name.accepts n = true ∧ (Match.word w).accepts t = true := by
  obtain ⟨_, _, _, -, -, ⟨n, rfl, hname, -⟩, t, rfl, hword, -⟩ := took_of_read (p := seq [name, word w]) rfl h
  exact ⟨n, t, rfl, hname, hword⟩

/-- A name that a primary starts with has no word behind it, unless the word stands behind the whole primary. -/
theorem read_nameAhead_of_primary {w : String} (hw : w ∉ [".", "(", "["]) (h : read (sym primary) ts = some (xs, rest))
    (hrest : ¬StartsWith [.word w] rest) : read (seq [name, word w]) ts = none := by
  cases hread : read (seq [name, word w]) ts with
  | none => rfl
  | some r =>
    obtain ⟨t, u, rfl, hname, hword⟩ := read_nameAhead_eq_some hread
    -- The primary stops in front of the word.
    have hnone : runStep read primarySteps (u :: r.2) = none := by
      refine runStep_eq_none (by decide) ?_
      rintro ⟨u', us', heq, m, hm, haccepts⟩
      cases heq
      have hm : m ∈ [.word ".", .word "(", .word "["] := hm
      simp only [List.mem_cons, List.not_mem_nil, or_false] at hm hw
      rcases hm with rfl | rfl | rfl <;> exact hw (by simp [word_unique hword haccepts])
    rw [read_primary, read_atom_of_name hname, Option.map_some, extendAll_stop hnone] at h
    cases h
    exact absurd ⟨u, r.2, rfl, .word w, List.mem_singleton_self _, hword⟩ hrest

theorem read_walrus_of_ahead (h : read (seq [name, word ":="]) ts = none) : read walrus ts = none := by
  rw [walrus, read_seq (by decide), runSeq, read_ahead (by decide), h]
  rfl

theorem read_namedExpression_of_expression (hwalrus : read walrus ts = none)
    (h : read (sym expression) ts = some (xs, rest)) (hrest : ¬StartsWith [.word ":="] rest) :
    read (sym namedExpression) ts = some (xs, rest) := by
  have hsign : read (word ":=") rest = none := read_eq_none rfl hrest
  have hnever : read (never (word ":=")) rest = some ([], rest) := by
    rw [read_never (by decide), hsign]
    rfl
  have hseq : read (seq [sym expression, never (word ":=")]) ts = some (xs, rest) := by
    rw [read_seq (by decide)]
    simp [runSeq, h, hnever]
  rw [read_sym]
  change read (alt [walrus, seq [sym expression, never (word ":=")]]) ts = _
  rw [read_alt (by decide), runAlt, hwalrus, runAlt, hseq]

/-- A primary that no operator follows is an expression of the highest level. -/
theorem read_namedExpression_of_primary (hproper : ∀ t ∈ ts.head?, t.Proper) (h : read (sym primary) ts = some (xs, rest))
    (hrest : Quiet rest) (hsign : ¬StartsWith [.word ":="] rest) :
    read (sym namedExpression) ts = some (xs, rest) :=
  have hahead : read (seq [name, word ":="]) ts = none := read_nameAhead_of_primary (by decide) h hsign
  read_namedExpression_of_expression (read_walrus_of_ahead hahead) (read_expression_of_primary hproper h hrest) hsign

/-- A primary up to the end of the tokens is a list of expressions. -/
theorem read_starExpressions_of_primary (hproper : ∀ t ∈ ts.head?, t.Proper) (h : read (sym primary) ts = some (xs, [])) :
    read (sym starExpressions) ts = some (xs, []) := by
  have hatom : StartsWith atomFirsts ts := read_firsts (p := sym primary) rfl h
  have hexpression := read_expression_of_primary hproper h (not_startsWith_nil _)
  have hstar : read (sym starExpression) ts = some (xs, []) :=
    climb_alt _ rfl (by decide) rfl (by decide) hproper hatom hexpression
  have hstop : ∀ steps, Consuming steps → extendAll steps xs [] = (xs, []) := fun steps hsteps =>
    extendAll_stop (runStep_eq_none hsteps (not_startsWith_nil _))
  rw [read_sym]
  change read (extend (sym starExpression) _) ts = _
  rw [read_extendAll (by decide), hstar, Option.map_some, hstop _ (by decide)]

end

end Grammar

end Conformance.Source
