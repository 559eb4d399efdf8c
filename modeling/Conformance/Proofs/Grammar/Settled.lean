import Conformance.Source.Grammar.Line
import Conformance.Proofs.Grammar.Trees

/-!
# Reading does not depend on its bound

`Peg.run` is given a bound on how deep expressions nest, and running out of it counts as a failure, which could make a
choice go wrong.  It never does: each symbol of the grammar has a rank that bounds the nesting before a token is taken,
so the bound that a line is read with is larger than any that is needed.

    leftRank p + bound * ts.length ≤ n → leftRank p + bound * ts.length ≤ m → run rules n p ts = run rules m p ts

`Grammar.read` is reading with the bound of the tokens at hand, and `read_seq`, `read_alt` and the other equations
are what is used of it: they do not mention a bound.
-/

namespace Conformance.Source

open SyntaxTree

namespace Peg

variable {σ : Type}

/-! ## Ranks -/

section
variable (takes : σ → Bool)

mutual

/-- Whether an expression takes a token whenever it succeeds, given which symbols do. -/
def consumes : Peg σ → Bool
  | tok _ => true
  | sym s => takes s
  | seq ps => consumesAny ps
  | alt ps => consumesAll ps
  | many _ => false
  | ahead _ => false
  | never _ => false
  | stop => false
  | node _ p => p.consumes
  | build _ p => p.consumes
  | only _ p => p.consumes
  | extend p _ => p.consumes

def consumesAny : List (Peg σ) → Bool
  | [] => false
  | p :: ps => p.consumes || consumesAny ps

def consumesAll : List (Peg σ) → Bool
  | [] => true
  | p :: ps => p.consumes && consumesAll ps

end

variable (rank : σ → Nat)

mutual

/-- How deep an expression nests before it has taken a token, given the ranks of the symbols. -/
def leftRank : Peg σ → Nat
  | tok _ => 1
  | sym s => rank s + 1
  | seq ps => leftRankSeq ps + 1
  | alt ps => leftRankAlt ps + 1
  | many p => p.leftRank + 1
  | ahead p => p.leftRank + 1
  | never p => p.leftRank + 1
  | stop => 1
  | node _ p => p.leftRank + 1
  | build _ p => p.leftRank + 1
  | only _ p => p.leftRank + 1
  | extend p steps => max p.leftRank (leftRankSteps steps) + 1

def leftRankSeq : List (Peg σ) → Nat
  | [] => 0
  | p :: ps => max p.leftRank (if p.consumes takes then 0 else leftRankSeq ps)

def leftRankAlt : List (Peg σ) → Nat
  | [] => 0
  | p :: ps => max p.leftRank (leftRankAlt ps)

def leftRankSteps : List (Kind × Peg σ) → Nat
  | [] => 0
  | (_, p) :: ps => max p.leftRank (leftRankSteps ps)

end

/-- Whether the steps of an expression take a token each. -/
def stepsTake : Peg σ → Bool
  | extend _ steps => steps.all fun s => s.2.consumes takes
  | _ => true

/-- Whether no part of an expression nests deeper than the bound before it has taken a token, and all steps take one. -/
def within (bound : Nat) (p : Peg σ) : Bool := p.every fun q => q.leftRank takes rank ≤ bound && q.stepsTake takes

variable {takes rank} {bound : Nat}

theorem leftRank_le_of_within {p : Peg σ} (h : p.within takes rank bound = true) : p.leftRank takes rank ≤ bound :=
  of_decide_eq_true (Bool.and_eq_true_iff.mp (check_of_every h)).1

theorem leftRankSeq_le {ps : List (Peg σ)} (h : ∀ p ∈ ps, p.leftRank takes rank ≤ bound) :
    leftRankSeq takes rank ps ≤ bound := by
  induction ps with
  | nil => exact Nat.zero_le _
  | cons p ps ih =>
    obtain ⟨hp, hps⟩ := List.forall_mem_cons.mp h
    rw [leftRankSeq]
    split
    · exact Nat.max_le.mpr ⟨hp, Nat.zero_le _⟩
    · exact Nat.max_le.mpr ⟨hp, ih hps⟩

end

/-! ## Progress -/

theorem Derives.length_le {rules : σ → Peg σ} {p : Peg σ} {ts rest : List Token} {xs : List SyntaxTree}
    (h : Derives rules p ts xs rest) : rest.length ≤ ts.length := by
  rw [← h.lossless, List.length_append]
  exact Nat.le_add_left _ _

theorem consumes_of_consumesAll {takes : σ → Bool} {p : Peg σ} {ps : List (Peg σ)}
    (h : consumesAll takes ps = true) (hp : p ∈ ps) : p.consumes takes = true := by
  induction hp with
  | head => exact (Bool.and_eq_true_iff.mp h).1
  | tail _ _ ih => exact ih (Bool.and_eq_true_iff.mp h).2

/-- An expression that has to take a token leaves fewer than there were. -/
theorem Derives.length_lt {takes : σ → Bool} {rules : σ → Peg σ}
    (htakes : ∀ s, takes s = true → (rules s).consumes takes = true) {p : Peg σ} {ts rest : List Token}
    {xs : List SyntaxTree} (h : Derives rules p ts xs rest) (hp : p.consumes takes = true) :
    rest.length < ts.length := by
  induction h with
  | tok => exact Nat.lt_succ_self _
  | sym _ ih => exact ih (htakes _ hp)
  | nil | done | again | ahead | never | stop => cases hp
  | cons hfirst hmore ih ih' =>
    rcases Bool.or_eq_true_iff.mp hp with hp | hps
    · exact Nat.lt_of_le_of_lt hmore.length_le (ih hp)
    · exact Nat.lt_of_lt_of_le (ih' hps) hfirst.length_le
  | alt hmem _ ih => exact ih (consumes_of_consumesAll hp hmem)
  | node _ ih | build _ ih | only _ ih | first _ ih => exact ih hp
  | step _ _ hread ih _ => exact Nat.lt_of_le_of_lt hread.length_le (ih hp)

/-- Reading leaves no more tokens than there were, and fewer if the expression takes one. -/
def Progresses (takes : σ → Bool) (f : Peg σ → List Token → Read) : Prop :=
  ∀ p ts xs rest, f p ts = some (xs, rest) →
    rest.length ≤ ts.length ∧ (p.consumes takes = true → rest.length < ts.length)

theorem run_progresses {takes : σ → Bool} {rules : σ → Peg σ}
    (htakes : ∀ s, takes s = true → (rules s).consumes takes = true) (n : Nat) : Progresses takes (run rules n) :=
  fun _ _ _ _ h => ⟨(run_derives h).length_le, (run_derives h).length_lt htakes⟩

/-! ## Two bounds -/

section
variable {takes : σ → Bool} {rank : σ → Nat} {bound : Nat} {f g : Peg σ → List Token → Read} {limit : Nat}

/-- Two readers give the same for every expression and as many tokens as the limit allows. -/
def SameWithin (takes : σ → Bool) (rank : σ → Nat) (bound limit : Nat) (f g : Peg σ → List Token → Read) : Prop :=
  ∀ p ts, p.within takes rank bound = true → p.leftRank takes rank + bound * ts.length ≤ limit → f p ts = g p ts

/-- Fewer tokens leave room for an expression of any rank. -/
theorem add_mul_le_of_lt {r a b : Nat} (hr : r ≤ bound) (h : a < b) : r + bound * a ≤ bound * b := by
  have hmul : bound * (a + 1) ≤ bound * b := Nat.mul_le_mul_left bound h
  rw [Nat.mul_succ] at hmul
  omega

theorem SameWithin.runSeq (hfg : SameWithin takes rank bound limit f g) (hf : Progresses takes f)
    {ps : List (Peg σ)} {ts : List Token} (hps : ∀ p ∈ ps, p.within takes rank bound = true)
    (hlimit : leftRankSeq takes rank ps + bound * ts.length ≤ limit) : runSeq f ps ts = runSeq g ps ts := by
  induction ps generalizing ts with
  | nil => rfl
  | cons p ps ih =>
    obtain ⟨hp, hrest⟩ := List.forall_mem_cons.mp hps
    rw [leftRankSeq] at hlimit
    have hfirst : f p ts = g p ts := hfg p ts hp (by omega)
    rw [Peg.runSeq, Peg.runSeq, ← hfirst]
    cases hread : f p ts with
    | none => rfl
    | some r =>
      obtain ⟨xs, rest⟩ := r
      obtain ⟨hle, hlt⟩ := hf p ts xs rest hread
      have hroom : leftRankSeq takes rank ps + bound * rest.length ≤ limit := by
        cases hconsumes : p.consumes takes with
        | true =>
          have hbound := leftRankSeq_le fun q hq => leftRank_le_of_within (hrest q hq)
          have := add_mul_le_of_lt hbound (hlt hconsumes)
          omega
        | false =>
          rw [hconsumes] at hlimit
          have := Nat.mul_le_mul_left bound hle
          simp only [Bool.false_eq_true, if_false] at hlimit
          omega
      simp only [ih hrest hroom]

theorem SameWithin.runAlt (hfg : SameWithin takes rank bound limit f g) {ps : List (Peg σ)} {ts : List Token}
    (hps : ∀ p ∈ ps, p.within takes rank bound = true)
    (hlimit : leftRankAlt takes rank ps + bound * ts.length ≤ limit) : runAlt f ps ts = runAlt g ps ts := by
  induction ps with
  | nil => rfl
  | cons p ps ih =>
    obtain ⟨hp, hrest⟩ := List.forall_mem_cons.mp hps
    rw [leftRankAlt] at hlimit
    have hfirst : f p ts = g p ts := hfg p ts hp (by omega)
    rw [Peg.runAlt, Peg.runAlt, ← hfirst, ih hrest (by omega)]

theorem SameWithin.runMany (hfg : SameWithin takes rank bound limit f g) {p : Peg σ}
    (hp : p.within takes rank bound = true) (n : Nat) {ts : List Token}
    (hlimit : p.leftRank takes rank + bound * ts.length ≤ limit) :
    runMany (f p) n ts = runMany (g p) n ts := by
  induction n generalizing ts with
  | zero => rfl
  | succ n ih =>
    rw [Peg.runMany, Peg.runMany, ← hfg p ts hp hlimit]
    cases f p ts with
    | none => rfl
    | some r =>
      obtain ⟨xs, rest⟩ := r
      dsimp only
      split
      · next hlt =>
        have := Nat.mul_le_mul_left bound (Nat.le_of_lt hlt)
        rw [ih (by omega)]
      · rfl

theorem SameWithin.runStep (hfg : SameWithin takes rank bound limit f g) {steps : List (Kind × Peg σ)}
    {ts : List Token} (hsteps : ∀ s ∈ steps, s.2.within takes rank bound = true)
    (hlimit : leftRankSteps takes rank steps + bound * ts.length ≤ limit) :
    runStep f steps ts = runStep g steps ts := by
  induction steps with
  | nil => rfl
  | cons s steps ih =>
    obtain ⟨k, p⟩ := s
    obtain ⟨hp, hrest⟩ := List.forall_mem_cons.mp hsteps
    rw [leftRankSteps] at hlimit
    have hfirst : f p ts = g p ts := hfg p ts hp (by omega)
    rw [Peg.runStep, Peg.runStep, ← hfirst, ih hrest (by omega)]

theorem SameWithin.runExtend (hfg : SameWithin takes rank bound limit f g) (hf : Progresses takes f)
    {steps : List (Kind × Peg σ)} (hsteps : ∀ s ∈ steps, s.2.within takes rank bound = true) (n : Nat)
    {xs : List SyntaxTree} {ts : List Token}
    (hlimit : leftRankSteps takes rank steps + bound * ts.length ≤ limit) :
    runExtend f steps n xs ts = runExtend g steps n xs ts := by
  induction n generalizing xs ts with
  | zero => rfl
  | succ n ih =>
    rw [Peg.runExtend, Peg.runExtend, ← hfg.runStep hsteps hlimit]
    cases hstep : Peg.runStep f steps ts with
    | none => rfl
    | some r =>
      obtain ⟨k, ys, rest⟩ := r
      obtain ⟨q, -, hread⟩ := runStep_eq_some hstep
      have := Nat.mul_le_mul_left bound (hf _ _ _ _ hread).1
      exact ih (by omega)

/-- Beyond what an expression and its tokens need, the bound does not matter. -/
theorem run_sameWithin {rules : σ → Peg σ} (htakes : ∀ s, takes s = true → (rules s).consumes takes = true)
    (hrank : ∀ s, (rules s).leftRank takes rank ≤ rank s) (hwithin : ∀ s, (rules s).within takes rank bound = true)
    (n m : Nat) : SameWithin takes rank bound (min n m) (run rules n) (run rules m) := by
  induction n generalizing m with
  | zero =>
    intro p ts hp hlimit
    have hpos : 0 < p.leftRank takes rank := by cases p <;> simp [leftRank]
    omega
  | succ n ih =>
    intro p ts hp hlimit
    cases m with
    | zero =>
      have hpos : 0 < p.leftRank takes rank := by cases p <;> simp [leftRank]
      omega
    | succ m =>
      have hsame : SameWithin takes rank bound (min n m) (run rules n) (run rules m) := ih m
      have hprogress := run_progresses htakes n
      have hroom : p.leftRank takes rank + bound * ts.length ≤ min n m + 1 := by omega
      unfold run
      cases p with
      | tok m => rfl
      | sym s =>
        rw [leftRank] at hroom
        exact hsame _ _ (hwithin s) (by have := hrank s; omega)
      | seq ps =>
        rw [leftRank] at hroom
        rw [within, every, Bool.and_eq_true] at hp
        exact hsame.runSeq hprogress (everyPart_iff.mp hp.2) (by omega)
      | alt ps =>
        rw [leftRank] at hroom
        rw [within, every, Bool.and_eq_true] at hp
        exact hsame.runAlt (everyPart_iff.mp hp.2) (by omega)
      | many p =>
        rw [leftRank] at hroom
        rw [within, every, Bool.and_eq_true] at hp
        exact congrArg some (hsame.runMany hp.2 _ (by omega))
      | stop => rfl
      | ahead p | never p | node _ p | build _ p | only _ p =>
        rw [leftRank] at hroom
        rw [within, every, Bool.and_eq_true] at hp
        simp only [hsame p ts hp.2 (by omega)]
      | extend p steps =>
        rw [leftRank] at hroom
        simp only [within, every, Bool.and_eq_true] at hp
        simp only [← hsame p ts hp.2.1 (by omega)]
        cases hread : run rules n p ts with
        | none => rfl
        | some r =>
          obtain ⟨xs, rest⟩ := r
          have hmul := Nat.mul_le_mul_left bound (hprogress p ts xs rest hread).1
          have hlimit : leftRankSteps takes rank steps + bound * rest.length ≤ min n m := by omega
          exact congrArg some (hsame.runExtend hprogress (everyStep_iff.mp hp.2.2) _ hlimit)

end

end Peg

namespace Grammar

open Peg Nonterminal

/-! ## The grammar of lines -/

/-- Whether a symbol takes a token whenever it succeeds. -/
def takes : Nonterminal → Bool
  | callArguments | arguments | lambdaParameters | parameters => false
  | _ => true

/-- How deep a symbol nests before it has taken a token. -/
def rank : Nonterminal → Nat
  | starPattern => 2
  | template | field | parens | brackets | braces | lambda | yielding | typeParameters => 3
  | caseLine => 4
  | comprehension => 5
  | strings => 6
  | lambdaParameters | parameters => 7
  | atom | closedPattern | mappingKey => 8
  | primary | pattern => 10
  | awaited => 12
  | starTarget | sequencePattern => 13
  | power | patterns => 14
  | starTargets => 15
  | factor => 16
  | term => 18
  | sum => 20
  | shift => 22
  | bitAnd => 24
  | bitXor => 26
  | bitOr => 28
  | comparison => 30
  | inversion => 32
  | conjunction => 34
  | disjunction => 36
  | expression => 39
  | starExpression => 41
  | namedExpression | withItem => 42
  | starExpressions => 43
  | starNamed | slices => 44
  | smallStatement => 47
  | callArguments | arguments => 48
  | simple => 50
  | line => 52

theorem consumes_rules (s : Nonterminal) : takes s = true → (rules s).consumes takes = true := by
  cases s <;> decide

theorem leftRank_rules (s : Nonterminal) : (rules s).leftRank takes rank ≤ rank s := by
  cases s <;> decide

theorem within_rules (s : Nonterminal) : (rules s).within takes rank 255 = true := by
  cases s <;> decide

/-- An expression that nests no deeper than the grammar allows. -/
abbrev Small (p : E) : Prop := p.within takes rank 255 = true

/-- Reads by an expression, with the bound that a line of these tokens is read with. -/
def read (p : E) (ts : List Token) : Read := run rules (depth ts.length) p ts

theorem readLine?_eq (s : Nonterminal) (ts : List Token) :
    readLine? s ts = (read (sym s) ts).bind fun r => if r.2.isEmpty then some r.1 else none := by
  unfold readLine? read
  cases run rules (depth ts.length) (sym s) ts with
  | none => rfl
  | some r =>
    obtain ⟨trees, rest⟩ := r
    cases rest <;> rfl

theorem read_progresses : Progresses takes read :=
  fun p ts => run_progresses consumes_rules (depth ts.length) p ts

/-- A bound of one less than that of a line reads its parts as they are read by themselves. -/
theorem run_sameWithin_read (len : Nat) :
    SameWithin takes rank 255 (255 * (len + 1)) (run rules (depth len - 1)) read := by
  intro p ts hp hlimit
  have hrank := leftRank_le_of_within hp
  refine run_sameWithin consumes_rules leftRank_rules within_rules _ _ p ts hp ?_
  unfold depth
  omega

/-- What a part of a line reads. -/
theorem depth_succ (len : Nat) : depth len = (depth len - 1) + 1 := by
  unfold depth
  omega

section
variable {p : E} {ps : List E} {ts : List Token}

theorem read_tok (m : Match) (t : Token) (ts : List Token) :
    read (tok m) (t :: ts) = if m.accepts t then some ([.leaf t], ts) else none := by
  rw [read, depth_succ]
  rfl

theorem read_sym (s : Nonterminal) (ts : List Token) : read (sym s) ts = read (rules s) ts := by
  have hrank := leftRank_rules s
  have hsmall := leftRank_le_of_within (within_rules s)
  rw [read, depth_succ]
  exact run_sameWithin_read ts.length _ _ (within_rules s) (by omega)

theorem read_seq (hps : Small (seq ps)) (ts : List Token) : read (seq ps) ts = runSeq read ps ts := by
  have hparts := everyPart_iff.mp (Bool.and_eq_true_iff.mp hps).2
  have hrank := leftRankSeq_le fun p hp => leftRank_le_of_within (hparts p hp)
  rw [read, depth_succ]
  exact (run_sameWithin_read ts.length).runSeq (run_progresses consumes_rules _) hparts (by omega)

theorem read_alt (hps : Small (alt ps)) (ts : List Token) : read (alt ps) ts = runAlt read ps ts := by
  have hrank := leftRank_le_of_within hps
  rw [leftRank] at hrank
  rw [read, depth_succ]
  exact (run_sameWithin_read ts.length).runAlt (everyPart_iff.mp (Bool.and_eq_true_iff.mp hps).2) (by omega)

theorem read_many (hp : Small p) (ts : List Token) : read (many p) ts = some (runMany (read p) ts.length ts) := by
  have hrank := leftRank_le_of_within hp
  rw [read, depth_succ]
  exact congrArg some ((run_sameWithin_read ts.length).runMany hp _ (by omega))

theorem run_eq_read (hp : Small p) (ts : List Token) : run rules (depth ts.length - 1) p ts = read p ts := by
  have hrank := leftRank_le_of_within hp
  exact run_sameWithin_read ts.length p ts hp (by omega)

theorem read_ahead (hp : Small p) (ts : List Token) : read (ahead p) ts = (read p ts).map fun _ => ([], ts) := by
  rw [← run_eq_read hp, read, depth_succ]
  rfl

theorem read_never (hp : Small p) (ts : List Token) :
    read (never p) ts = if (read p ts).isNone then some ([], ts) else none := by
  rw [← run_eq_read hp, read, depth_succ]
  rfl

theorem read_stop (ts : List Token) : read stop ts = if ts.isEmpty then some ([], ts) else none := by
  rw [read, depth_succ]
  rfl

theorem read_node (k : Kind) (hp : Small p) (ts : List Token) :
    read (node k p) ts = (read p ts).map fun r => ([.node k r.1], r.2) := by
  rw [← run_eq_read hp, read, depth_succ]
  rfl

theorem read_build (s : Shape) (hp : Small p) (ts : List Token) :
    read (build s p) ts = (read p ts).map fun r => ([.node (s.kind r.1) r.1], r.2) := by
  rw [← run_eq_read hp, read, depth_succ]
  rfl

theorem read_only (c : Check) (hp : Small p) (ts : List Token) :
    read (only c p) ts = (read p ts).filter fun r => c.holds r.1 := by
  rw [← run_eq_read hp, read, depth_succ]
  rfl

theorem read_extend {steps : List (Kind × E)} (hp : Small (extend p steps)) (ts : List Token) :
    read (extend p steps) ts = (read p ts).map fun r => runExtend read steps ts.length r.1 r.2 := by
  obtain ⟨hsmall, hsteps⟩ := Bool.and_eq_true_iff.mp (Bool.and_eq_true_iff.mp hp).2
  have hrank := leftRank_le_of_within hp
  rw [leftRank] at hrank
  have hstart : read (extend p steps) ts = (run rules (depth ts.length - 1) p ts).map fun r =>
      runExtend (run rules (depth ts.length - 1)) steps ts.length r.1 r.2 := by
    rw [read, depth_succ]
    rfl
  rw [hstart, ← run_eq_read hsmall]
  refine Option.map_congr fun r hread => ?_
  have hmul := Nat.mul_le_mul_left 255 (run_progresses consumes_rules _ p ts r.1 r.2 hread).1
  exact (run_sameWithin_read ts.length).runExtend (run_progresses consumes_rules _) (everyStep_iff.mp hsteps) _
    (by omega)

end

end Grammar

end Conformance.Source
