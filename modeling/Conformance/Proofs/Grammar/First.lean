import Conformance.Proofs.Grammar.Settled

/-!
# First tokens

What an expression takes starts with a token that is one of its `firsts` (`read_firsts`), so an expression that has to
take a token fails where none of them lies ahead (`read_eq_none`).
-/

namespace Conformance.Source

namespace Peg

variable {σ : Type}

section
variable (takes : σ → Bool) (table : σ → List Match)

mutual

/-- What the first token that an expression takes may be, given the same of the symbols. -/
def firsts : Peg σ → List Match
  | tok m => [m]
  | sym s => table s
  | seq ps => firstsSeq ps
  | alt ps => firstsAlt ps
  | many p => p.firsts
  | ahead _ => []
  | never _ => []
  | stop => []
  | node _ p => p.firsts
  | build _ p => p.firsts
  | only _ p => p.firsts
  | extend p steps => p.firsts ++ if p.consumes takes then [] else firstsSteps steps

def firstsSeq : List (Peg σ) → List Match
  | [] => []
  | p :: ps => p.firsts ++ if p.consumes takes then [] else firstsSeq ps

def firstsAlt : List (Peg σ) → List Match
  | [] => []
  | p :: ps => p.firsts ++ firstsAlt ps

def firstsSteps : List (Kind × Peg σ) → List Match
  | [] => []
  | (_, p) :: steps => p.firsts ++ firstsSteps steps

end

end

/-- The tokens start with one that is matched. -/
def StartsWith (ms : List Match) (ts : List Token) : Prop :=
  ∃ t rest, ts = t :: rest ∧ ∃ m ∈ ms, m.accepts t = true

theorem StartsWith.mono {ms ms' : List Match} {ts : List Token} (h : StartsWith ms ts) (hsub : ms ⊆ ms') :
    StartsWith ms' ts := by
  obtain ⟨t, rest, hts, m, hm, haccepts⟩ := h
  exact ⟨t, rest, hts, m, hsub hm, haccepts⟩

theorem Derives.eq_of_not_lt {rules : σ → Peg σ} {p : Peg σ} {ts rest : List Token} {xs : List SyntaxTree}
    (h : Derives rules p ts xs rest) (hlt : ¬rest.length < ts.length) : rest = ts := by
  have hlength := congrArg List.length h.lossless
  rw [List.length_append] at hlength
  rw [← h.lossless, List.eq_nil_of_length_eq_zero (by omega : (SyntaxTree.leavesAll xs).length = 0), List.nil_append]

section
variable {takes : σ → Bool} {table : σ → List Match}

theorem firsts_subset_firstsAlt {p : Peg σ} {ps : List (Peg σ)} (hp : p ∈ ps) :
    p.firsts takes table ⊆ firstsAlt takes table ps := by
  induction hp with
  | head => exact List.subset_append_left _ _
  | tail _ _ ih => exact List.subset_append_of_subset_right _ ih

theorem firsts_subset_firstsSteps {s : Kind × Peg σ} {steps : List (Kind × Peg σ)} (hs : s ∈ steps) :
    s.2.firsts takes table ⊆ firstsSteps takes table steps := by
  induction hs with
  | head => exact List.subset_append_left _ _
  | tail _ _ ih => exact List.subset_append_of_subset_right _ ih

/-- Tokens that are taken start with one of the first tokens of what takes them. -/
theorem Derives.startsWith {rules : σ → Peg σ} (htakes : ∀ s, takes s = true → (rules s).consumes takes = true)
    (htable : ∀ s, (rules s).firsts takes table ⊆ table s) {p : Peg σ} {ts rest : List Token} {xs : List SyntaxTree}
    (h : Derives rules p ts xs rest) (hlt : rest.length < ts.length) : StartsWith (p.firsts takes table) ts := by
  induction h with
  | @tok m t ts haccepts => exact ⟨t, ts, rfl, m, List.mem_singleton_self m, haccepts⟩
  | sym _ ih => exact (ih hlt).mono (htable _)
  | nil | done | ahead | never | stop => exact absurd hlt (Nat.lt_irrefl _)
  | @cons p ps ts xs mid ys rest hread _ ih ih' =>
    by_cases hmid : mid.length < ts.length
    · exact (ih hmid).mono (List.subset_append_left _ _)
    · -- The first part took nothing, so the others start where it did.
      obtain rfl : mid = ts := hread.eq_of_not_lt hmid
      rw [firsts, firstsSeq, if_neg fun hconsumes => hmid (hread.length_lt htakes hconsumes)]
      exact (ih' hlt).mono (List.subset_append_right _ _)
  | alt hmem _ ih => exact (ih hlt).mono (firsts_subset_firstsAlt hmem)
  | @again p ts xs mid ys rest hread _ ih ih' =>
    by_cases hmid : mid.length < ts.length
    · exact ih hmid
    · obtain rfl : mid = ts := hread.eq_of_not_lt hmid
      exact ih' hlt
  | node _ ih | build _ ih | only _ ih => exact ih hlt
  | first _ ih => exact (ih hlt).mono (List.subset_append_left _ _)
  | @step p steps k q ts xs mid ys rest hfront hmem _ ih ih' =>
    by_cases hmid : mid.length < ts.length
    · exact ih hmid
    · obtain rfl : mid = ts := hfront.eq_of_not_lt hmid
      have hnot : ¬p.consumes takes = true := fun hconsumes =>
        hmid (hfront.length_lt htakes (p := .extend p steps) hconsumes)
      rw [firsts, if_neg hnot]
      exact (ih' hlt).mono (List.subset_append_of_subset_right _ (firsts_subset_firstsSteps hmem))

end

end Peg

namespace Grammar

open Peg Nonterminal

/-! ## The first tokens of the grammar -/

/-- What an atom may start with. -/
def atomFirsts : List Match :=
  [.name, .word "True", .word "False", .word "None", .kind .string, .kind .templateStart, .kind .number, .word "(",
   .word "[", .word "\x7b", .word "..."]

/-- The words that an expression may start with, besides those of an atom. -/
def operandFirsts : List Match :=
  [.word "await", .word "+", .word "-", .word "~", .word "not", .word "lambda"] ++ atomFirsts

/-- What a pattern may start with. -/
def patternFirsts : List Match :=
  [.word "-", .kind .number, .kind .string, .kind .templateStart, .word "None", .word "True", .word "False", .name,
   .word "(", .word "[", .word "\x7b"]

/-- What small statements may start with. -/
def smallFirsts : List Match :=
  [.word "pass", .word "break", .word "continue", .word "return", .word "raise", .word "del", .word "assert",
   .word "global", .word "nonlocal", .word "import", .word "from", .word "type", .word "*", .word "yield"] ++
    operandFirsts

/-- What the head of a compound statement starts with. -/
def headFirsts : List Match :=
  [.word "class", .word "async", .word "def", .word "if", .word "elif", .word "else", .word "while", .word "for",
   .word "try", .word "except", .word "finally", .word "with", .word "match"]

/-- What the tokens of a symbol may start with. -/
def firstOf : Nonterminal → List Match
  | strings => [.kind .string, .kind .templateStart]
  | template => [.kind .templateStart]
  | field => [.word "\x7b"]
  | parens => [.word "("]
  | brackets => [.word "["]
  | braces => [.word "\x7b"]
  | lambda => [.word "lambda"]
  | yielding => [.word "yield"]
  | typeParameters => [.word "["]
  | starPattern => [.word "*"]
  | comprehension => [.word "async", .word "for"]
  | caseLine => [.word "case"]
  | atom | primary => atomFirsts
  | closedPattern | pattern | mappingKey => patternFirsts
  | patterns | sequencePattern => .word "*" :: patternFirsts
  | starTarget | starTargets => .word "*" :: atomFirsts
  | starExpression | starExpressions | starNamed => .word "*" :: operandFirsts
  | slices => [.word "*", .word ":"] ++ operandFirsts
  | callArguments | arguments => [.word "*", .word "**"] ++ operandFirsts
  | lambdaParameters | parameters => [.name, .word "/", .word "*", .word "**"]
  | smallStatement | simple => smallFirsts
  | line => .word "@" :: headFirsts ++ smallFirsts
  | _ => operandFirsts

theorem firsts_rules (s : Nonterminal) : (rules s).firsts takes firstOf ⊆ firstOf s := by
  cases s <;> decide

/-- What is read starts with one of the first tokens. -/
theorem read_firsts {p : E} {ts rest : List Token} {xs : List SyntaxTree} (hp : p.consumes takes = true)
    (h : read p ts = some (xs, rest)) : StartsWith (p.firsts takes firstOf) ts :=
  (run_derives h).startsWith consumes_rules firsts_rules ((read_progresses p ts xs rest h).2 hp)

/-- An expression fails where none of its first tokens lies ahead. -/
theorem read_eq_none {p : E} {ts : List Token} (hp : p.consumes takes = true)
    (h : ¬StartsWith (p.firsts takes firstOf) ts) : read p ts = none := by
  cases hread : read p ts with
  | none => rfl
  | some r => exact absurd (read_firsts hp hread) h

end Grammar

end Conformance.Source
