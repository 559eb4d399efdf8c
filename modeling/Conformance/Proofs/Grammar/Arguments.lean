import Conformance.Proofs.Grammar.Levels

/-!
# Arguments

Expressions that can stand as positional arguments (`Fits`) are read back from a list of arguments, each with its
comma, up to the closing parenthesis (`read_callArguments`).  With the steps of a primary this reads a call back from
its tokens (`runStep_call`).
-/

namespace Conformance.Source

open SyntaxTree

namespace Grammar

open Peg Nonterminal

/-! ## Repetition -/

/-- Reads as often as possible. -/
def repeatAll (p : E) (ts : List Token) : List SyntaxTree × List Token :=
  runMany (read p) ts.length ts

section
variable {p : E} {xs : List SyntaxTree} {ts rest : List Token}

theorem runMany_eq_repeatAll (p : E) {n : Nat} (hn : ts.length ≤ n) : runMany (read p) n ts = repeatAll p ts := by
  have hsame : ∀ (n m : Nat) (ts : List Token), ts.length ≤ n → ts.length ≤ m →
      runMany (read p) n ts = runMany (read p) m ts := by
    intro n
    induction n with
    | zero =>
      intro m ts hn hm
      cases m with
      | zero => rfl
      | succ m =>
        rw [runMany, runMany]
        split
        · rfl
        · rw [if_neg (by omega)]
    | succ n ih =>
      intro m ts hn hm
      cases m with
      | zero =>
        rw [runMany, runMany]
        split
        · rfl
        · rw [if_neg (by omega)]
      | succ m =>
        rw [runMany, runMany]
        split
        · rfl
        · next ys mid hread =>
          split
          · rw [ih m mid (by omega) (by omega)]
          · rfl
  exact hsame _ _ ts hn (Nat.le_refl _)

theorem repeatAll_stop (h : read p ts = none) : repeatAll p ts = ([], ts) := by
  unfold repeatAll
  cases ts.length with
  | zero => rfl
  | succ n => simp only [runMany, h]

theorem repeatAll_step (h : read p ts = some (xs, rest)) (hlt : rest.length < ts.length) :
    repeatAll p ts = (xs ++ (repeatAll p rest).1, (repeatAll p rest).2) := by
  rw [repeatAll]
  cases hlength : ts.length with
  | zero => omega
  | succ n =>
    simp only [runMany, h]
    rw [if_pos hlt, runMany_eq_repeatAll p (by omega)]

end

/-! ## Positional arguments -/

/-- Tokens that may follow an argument. -/
def EndsArgument (ts : List Token) : Prop := Starts "," ts ∨ Starts ")" ts

/-- An expression that can stand as a positional argument. -/
structure Fits (e : SyntaxTree) : Prop where
  proper : ∀ t ∈ e.leaves, t.Proper
  reads : ∀ {ts}, EndsArgument ts → read (sym namedExpression) (e.leaves ++ ts) = some ([e], ts)
  plain : ∀ {ts}, EndsArgument ts → read keywordAhead (e.leaves ++ ts) = none

/-- Positional arguments, each but the last with a comma. -/
inductive Positionals : List SyntaxTree → Prop
  | nil : Positionals []
  | last {e : SyntaxTree} : Fits e → Positionals [.node .arg [e]]
  | cons {e a : SyntaxTree} {as : List SyntaxTree} {comma : Token} : Fits e → comma.kind = .operator →
      comma.text = "," → Positionals (a :: as) → Positionals (.node .arg [e, .leaf comma] :: a :: as)

/-- Where an argument ends, nothing that starts otherwise is read. -/
theorem read_none_of_endsArgument {p : E} {ts : List Token} (h : EndsArgument ts) (hp : p.consumes takes = true)
    (hcomma : ((p.firsts takes firstOf).all fun m => !m.takes ",") = true)
    (hclose : ((p.firsts takes firstOf).all fun m => !m.takes ")") = true) : read p ts = none := by
  rcases h with h | h
  · exact read_eq_none hp (not_startsWith_of_starts h hcomma)
  · exact read_eq_none hp (not_startsWith_of_starts h hclose)

theorem read_argumentEnd_comma {comma : Token} (hkind : comma.kind = .operator) (htext : comma.text = ",")
    (ts : List Token) : read argumentEnd (comma :: ts) = some ([.leaf comma], ts) := by
  rw [argumentEnd, read_alt (by decide), runAlt, word, read_tok, Match.accepts_eq_takes hkind htext]
  rfl

theorem read_argumentEnd_close {ts : List Token} (h : Starts ")" ts) : read argumentEnd ts = some ([], ts) := by
  obtain ⟨t, rest, rfl, hkind, htext⟩ := h
  rw [argumentEnd, read_alt (by decide), runAlt, word, read_tok, Match.accepts_eq_takes hkind htext, runAlt,
    read_ahead (by decide), word, read_tok, Match.accepts_eq_takes hkind htext]
  rfl

theorem read_never_of_none {p : E} (hp : Small p) {ts : List Token} (h : read p ts = none) :
    read (never p) ts = some ([], ts) := by
  rw [read_never hp, h]
  rfl

section
variable {e : SyntaxTree} {ts rest : List Token} {xs : List SyntaxTree}

theorem Fits.read_positional (he : Fits e) (hts : EndsArgument ts) (hend : read argumentEnd ts = some (xs, rest)) :
    read positional (e.leaves ++ ts) = some ([.node .arg (e :: xs)], rest) := by
  have hequals : read (word "=") ts = none := read_none_of_endsArgument hts rfl (by decide) (by decide)
  have hseq : read (seq [never keywordAhead, sym namedExpression, never (word "="), argumentEnd]) (e.leaves ++ ts) =
      some (e :: xs, rest) := by
    rw [read_seq (by decide)]
    simp [runSeq, read_never_of_none (p := keywordAhead) (by decide) (he.plain hts), he.reads hts,
      read_never_of_none (p := word "=") (by decide) hequals, hend]
  rw [positional, read_node _ (by decide), hseq]
  rfl

theorem Fits.read_firstPositional (he : Fits e) (hts : EndsArgument ts)
    (hend : read argumentEnd ts = some (xs, rest)) :
    read firstPositional (e.leaves ++ ts) = some ([.node .arg (e :: xs)], rest) := by
  have hequals : read (word "=") ts = none := read_none_of_endsArgument hts rfl (by decide) (by decide)
  have hvalue : read (extend (sym namedExpression) [(.generator, seq [sym comprehension, ahead (word ")")])])
      (e.leaves ++ ts) = some ([e], ts) := by
    have hnone : read (seq [sym comprehension, ahead (word ")")]) ts = none :=
      read_none_of_endsArgument hts rfl (by decide) (by decide)
    rw [read_extendAll (by decide), he.reads hts]
    exact congrArg some (extendAll_stop (by simp [runStep, hnone]))
  have hseq : read (seq [never keywordAhead,
      extend (sym namedExpression) [(.generator, seq [sym comprehension, ahead (word ")")])], never (word "="),
      argumentEnd]) (e.leaves ++ ts) = some (e :: xs, rest) := by
    rw [read_seq (by decide)]
    simp [runSeq, read_never_of_none (p := keywordAhead) (by decide) (he.plain hts), hvalue,
      read_never_of_none (p := word "=") (by decide) hequals, hend]
  rw [firstPositional, read_node _ (by decide), hseq]
  rfl

end

section
variable {as : List SyntaxTree} {ts : List Token}

theorem read_repeated (p : E) (hp : Small p) (ts : List Token) : read (many p) ts = some (repeatAll p ts) :=
  read_many hp ts

/-- Positional arguments are read one after the other. -/
theorem Positionals.repeatAll (h : Positionals as) (hts : Starts ")" ts) :
    Grammar.repeatAll (alt [positional, starArgument]) (leavesAll as ++ ts) = (as, ts) := by
  have hstop : read (alt [positional, starArgument]) ts = none :=
    read_none_of_endsArgument (.inr hts) (by decide) (by decide) (by decide)
  have hpositional : ∀ {us rest xs}, read positional us = some (xs, rest) →
      read (alt [positional, starArgument]) us = some (xs, rest) := fun hread => by
    rw [read_alt (by decide), runAlt, hread]
  have hprogress : ∀ {us rest xs}, read (alt [positional, starArgument]) us = some (xs, rest) →
      rest.length < us.length := fun hread => (read_progresses _ _ _ _ hread).2 (by decide)
  induction h with
  | nil => exact repeatAll_stop hstop
  | @last e he =>
    have hread := hpositional (he.read_positional (.inr hts) (read_argumentEnd_close hts))
    have hleaves : leavesAll [node .arg [e]] = e.leaves := by simp [leavesAll, leaves]
    rw [hleaves, repeatAll_step hread (hprogress hread), repeatAll_stop hstop]
    rfl
  | @cons e a as comma he hkind htext _ ih =>
    have hread := hpositional (he.read_positional (.inl ⟨comma, leavesAll (a :: as) ++ ts, rfl, hkind, htext⟩)
      (read_argumentEnd_comma hkind htext _))
    have hleaves : leavesAll (node .arg [e, .leaf comma] :: a :: as) ++ ts =
        e.leaves ++ comma :: (leavesAll (a :: as) ++ ts) := by simp [leavesAll, leaves]
    rw [hleaves, repeatAll_step hread (hprogress hread), ih]
    rfl

/-- The arguments of a call are read up to the closing parenthesis. -/
theorem read_callArguments (h : Positionals as) (hts : Starts ")" ts) :
    read (sym callArguments) (leavesAll as ++ ts) = some (as, ts) := by
  have hnone : ∀ p : E, p.consumes takes = true → ((p.firsts takes firstOf).all fun m => !m.takes ",") = true →
      ((p.firsts takes firstOf).all fun m => !m.takes ")") = true → read p ts = none :=
    fun p hp hcomma hclose => read_none_of_endsArgument (.inr hts) hp hcomma hclose
  have hkeywords : read (many (alt [keywordArgument, starArgument])) ts = some ([], ts) := by
    rw [read_repeated _ (by decide), repeatAll_stop (hnone _ (by decide) (by decide) (by decide))]
  have hmappings : read (many (alt [keywordArgument, doubleStarArgument])) ts = some ([], ts) := by
    rw [read_repeated _ (by decide), repeatAll_stop (hnone _ (by decide) (by decide) (by decide))]
  have hassemble : ∀ {us mid firsts more}, read (alt [firstPositional, starArgument, nothing]) us = some (firsts, mid) →
      Grammar.repeatAll (alt [positional, starArgument]) mid = (more, ts) →
      read (sym callArguments) us = some (firsts ++ more, ts) := by
    intro us mid firsts more hfirst hmore
    rw [read_sym]
    change read (seq (alt [firstPositional, starArgument, nothing] :: moreArguments)) us = _
    rw [read_seq (by decide)]
    simp [moreArguments, runSeq, hfirst, read_repeated _ (by decide : Small (alt [positional, starArgument])), hmore,
      hkeywords, hmappings]
  have hfirst : ∀ {us rest xs}, read firstPositional us = some (xs, rest) →
      read (alt [firstPositional, starArgument, nothing]) us = some (xs, rest) := fun hread => by
    rw [read_alt (by decide), runAlt, hread]
  cases h with
  | nil =>
    have hempty : read (alt [firstPositional, starArgument, nothing]) ts = some ([], ts) := by
      rw [read_alt (by decide), runAlt, hnone _ (by decide) (by decide) (by decide), runAlt,
        hnone _ (by decide) (by decide) (by decide), runAlt, nothing, read_seq (by decide)]
      rfl
    exact hassemble hempty (Positionals.nil.repeatAll hts)
  | @last e he =>
    have hleaves : leavesAll [node .arg [e]] = e.leaves := by simp [leavesAll, leaves]
    rw [hleaves]
    exact hassemble (hfirst (he.read_firstPositional (.inr hts) (read_argumentEnd_close hts)))
      (Positionals.nil.repeatAll hts)
  | @cons e a as comma he hkind htext hmore =>
    have hleaves : leavesAll (node .arg [e, .leaf comma] :: a :: as) ++ ts =
        e.leaves ++ comma :: (leavesAll (a :: as) ++ ts) := by simp [leavesAll, leaves]
    rw [hleaves]
    exact hassemble (hfirst (he.read_firstPositional (.inl ⟨comma, _, rfl, hkind, htext⟩)
      (read_argumentEnd_comma hkind htext _))) (hmore.repeatAll hts)

end

/-! ## Steps of a primary -/

section
variable {ts : List Token} {xs : List SyntaxTree}

theorem runStep_member {point name : Token} (hpoint : (Match.word ".").accepts point = true)
    (hname : Match.name.accepts name = true) (ts : List Token) :
    runStep read primarySteps (point :: name :: ts) = some (.member, [.leaf point, .leaf name], ts) := by
  have hread : read (seq [word ".", Peg.name]) (point :: name :: ts) = some ([.leaf point, .leaf name], ts) := by
    rw [read_seq (by decide)]
    simp [runSeq, word, Peg.name, read_tok, hpoint, hname]
  simp only [primarySteps, runStep, hread]

theorem runStep_call {opening closing : Token} {as : List SyntaxTree} (hopen : (Match.word "(").accepts opening = true)
    (hkind : closing.kind = .operator) (hclose : closing.text = ")") (has : Positionals as) (ts : List Token) :
    runStep read primarySteps (opening :: (leavesAll as ++ closing :: ts)) =
      some (.call, .leaf opening :: (as ++ [.leaf closing]), ts) := by
  have hmember : read (seq [word ".", Peg.name]) (opening :: (leavesAll as ++ closing :: ts)) = none := by
    refine read_eq_none rfl ?_
    rintro ⟨t, rest, heq, m, hm, haccepts⟩
    cases heq
    have hm : m ∈ [.word "."] := hm
    rw [List.mem_singleton] at hm
    rw [hm] at haccepts
    exact absurd (word_unique hopen haccepts) (by decide)
  have haccepts : (Match.word ")").accepts closing = true := by rw [Match.accepts_eq_takes hkind hclose]; rfl
  have hread : read (seq [word "(", sym callArguments, word ")"]) (opening :: (leavesAll as ++ closing :: ts)) =
      some (.leaf opening :: (as ++ [.leaf closing]), ts) := by
    rw [read_seq (by decide)]
    simp [runSeq, word, read_tok, hopen, read_callArguments has ⟨closing, ts, rfl, hkind, hclose⟩, haccepts]
  simp only [primarySteps, runStep, hmember, hread]

/-- A primary ends where none of its steps starts. -/
theorem runStep_primary_eq_none (h : ¬StartsWith [.word ".", .word "(", .word "["] ts) :
    runStep read primarySteps ts = none :=
  runStep_eq_none (by decide) h

end

end Grammar

end Conformance.Source
