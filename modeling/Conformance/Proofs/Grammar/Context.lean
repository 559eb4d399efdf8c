import Conformance.Proofs.Grammar.Nesting

/-!
# What follows does not matter

An expression that is cut out of a text and put elsewhere is followed by something else there.  It is still read as
the same tree, if neither of the two words that follow can go on with it: a `Border` is such a pair of words, with the
symbols that stop in front of both.  Inside brackets the border is the closing bracket, on both sides.

    read p (us ++ x :: rest) = some (trees, x :: rest) → read p (us ++ y :: rest') = some (trees, y :: rest')

for balanced tokens `us` and words `x` and `y` of the border (`read_border`).
-/

namespace Conformance.Source

open SyntaxTree

/-- Two words that may follow what is read, and the symbols that stop in front of them. -/
structure Border (σ : Type) where
  left : String
  right : String
  /-- Whether a colon may stand where nothing is open. -/
  colons : Bool
  clear : σ → Bool

/-- Whether a match takes an operator with the text. -/
def Match.takes (m : Match) (s : String) : Bool := m.accepts { kind := .operator, text := s }

theorem Match.accepts_eq_takes {m : Match} {t : Token} {s : String} (hkind : t.kind = .operator) (htext : t.text = s) :
    m.accepts t = m.takes s := by
  cases m <;> simp [takes, accepts, hkind, htext]

namespace Peg

variable {σ : Type}

section
variable (takes : σ → Bool) (inside : Enclosure → Border σ)

/-- Whether an expression is one token that takes both words of a border or neither. -/
def alike (b : Border σ) : Peg σ → Bool
  | tok m => m.takes b.left == m.takes b.right
  | _ => false

mutual

/-- Whether an expression stops in front of a border, given that the symbols of the border do.  What stands inside an
enclosure has to stop in front of the word that closes it. -/
def clear (b : Border σ) : Peg σ → Bool
  | tok m => !m.takes b.left && !m.takes b.right && m.nest? b.colons [] == some []
  | sym s => b.clear s
  | seq ps => clearSeq b [] ps
  | alt ps => clearAll b ps
  | many p => p.clear b
  | ahead p => p.clear b || p.alike b
  | never p => p.clear b || p.alike b
  | stop => true
  | node _ p => p.clear b
  | build _ p => p.clear b
  | only _ p => p.clear b
  | extend p steps => p.clear b && clearSteps b steps

def clearSeq (b : Border σ) (stack : List Enclosure) : List (Peg σ) → Bool
  | [] => stack == []
  | tok m :: ps =>
    (stack != [] || !m.takes b.left && !m.takes b.right) &&
      match m.nest? b.colons stack with
      | some next => clearSeq b next ps
      | none => false
  | p :: ps =>
    match stack with
    | [] => p.clear b && clearSeq b [] ps
    | e :: outer => e != .conversion && p.clear (inside e) && clearSeq b (e :: outer) ps

def clearAll (b : Border σ) : List (Peg σ) → Bool
  | [] => true
  | p :: ps => p.clear b && clearAll b ps

def clearSteps (b : Border σ) : List (Kind × Peg σ) → Bool
  | [] => true
  | (_, p) :: steps => p.consumes takes && p.clear b && clearSteps b steps

end

end

/-! ## Two readings -/

/-- Tokens that start with the operator. -/
def Starts (s : String) (ts : List Token) : Prop :=
  ∃ t rest, ts = t :: rest ∧ t.kind = .operator ∧ t.text = s

/-- Two readings fail both, or give the same trees and stop at the same place in front of what follows. -/
def Agree (colons : Bool) (xs ys : List Token) (r₁ r₂ : Read) : Prop :=
  (r₁ = none ∧ r₂ = none) ∨
    ∃ trees us, Balanced colons us ∧ r₁ = some (trees, us ++ xs) ∧ r₂ = some (trees, us ++ ys)

section
variable {takes : σ → Bool} {inside : Enclosure → Border σ} {rules : σ → Peg σ} {n : Nat} {b : Border σ}
  {xs ys us : List Token}

variable (takes inside rules) in
/-- The symbols of a border stop in front of it. -/
def Border.Sound (b : Border σ) : Prop :=
  ∀ s, b.clear s = true → (rules s).clear takes inside b = true

variable (takes inside rules n) in
/-- Reading stops in front of a border, with whatever follows it. -/
def StopsAtBorders : Prop :=
  ∀ {b p us xs ys}, Border.Sound takes inside rules b → p.clear takes inside b = true → Starts b.left xs →
    Starts b.right ys → Balanced b.colons us → Agree b.colons xs ys (run rules n p (us ++ xs)) (run rules n p (us ++ ys))

variable (takes inside rules) in
/-- The borders of the enclosures are sound. -/
def EnclosuresSound : Prop :=
  ∀ e, e ≠ .conversion → (inside e).left = e.close ∧ (inside e).right = e.close ∧ (inside e).colons = e.colons ∧
    Border.Sound takes inside rules (inside e)

theorem run_tok_cons (m : Match) (t : Token) (ts : List Token) :
    run rules (n + 1) (tok m) (t :: ts) = if m.accepts t then some ([.leaf t], ts) else none := rfl

theorem run_tok_starts {m : Match} {s : String} {ts : List Token} (h : Starts s ts) (hm : m.takes s = false) :
    run rules n (tok m) ts = none := by
  obtain ⟨t, rest, rfl, hkind, htext⟩ := h
  cases n with
  | zero => rfl
  | succ n => rw [run_tok_cons, Match.accepts_eq_takes hkind htext, hm]; rfl

/-- The first of some parts is a token, a part where nothing is open, or a part inside an enclosure. -/
theorem clearSeq_cons {stack : List Enclosure} {p : Peg σ} {ps : List (Peg σ)}
    (h : clearSeq takes inside b stack (p :: ps) = true) :
    (∃ m next, p = tok m ∧ (stack = [] → m.takes b.left = false ∧ m.takes b.right = false) ∧
        m.nest? b.colons stack = some next ∧ clearSeq takes inside b next ps = true) ∨
      (stack = [] ∧ p.clear takes inside b = true ∧ clearSeq takes inside b [] ps = true) ∨
      (∃ e outer, stack = e :: outer ∧ e ≠ .conversion ∧ p.clear takes inside (inside e) = true ∧
        clearSeq takes inside b stack ps = true) := by
  cases p with
  | tok m =>
    rw [clearSeq, Bool.and_eq_true] at h
    obtain ⟨hborder, h⟩ := h
    split at h
    · next next hnext =>
      refine .inl ⟨m, next, rfl, fun hstack => ?_, hnext, h⟩
      simpa [hstack] using hborder
    · cases h
  | _ =>
    unfold clearSeq at h
    cases stack with
    | nil => exact .inr (.inl ⟨rfl, Bool.and_eq_true_iff.mp h⟩)
    | cons e outer =>
      simp only [Bool.and_eq_true, bne_iff_ne] at h
      exact .inr (.inr ⟨e, outer, rfl, h.1.1, h.1.2, h.2⟩)

theorem Agree.cons {f : Peg σ → List Token → Read} {colons : Bool} {p : Peg σ} {ps : List (Peg σ)}
    {ts₁ ts₂ rest₁ rest₂ : List Token} {trees : List SyntaxTree} (h₁ : f p ts₁ = some (trees, rest₁))
    (h₂ : f p ts₂ = some (trees, rest₂)) (h : Agree colons xs ys (runSeq f ps rest₁) (runSeq f ps rest₂)) :
    Agree colons xs ys (runSeq f (p :: ps) ts₁) (runSeq f (p :: ps) ts₂) := by
  rw [runSeq, runSeq, h₁, h₂]
  rcases h with ⟨hnone₁, hnone₂⟩ | ⟨more, us, hus, hsome₁, hsome₂⟩
  · exact .inl ⟨by simp only [hnone₁], by simp only [hnone₂]⟩
  · exact .inr ⟨trees ++ more, us, hus, by simp only [hsome₁], by simp only [hsome₂]⟩

theorem Agree.fail {f : Peg σ → List Token → Read} {colons : Bool} {p : Peg σ} {ps : List (Peg σ)}
    {ts₁ ts₂ : List Token} (h₁ : f p ts₁ = none) (h₂ : f p ts₂ = none) :
    Agree colons xs ys (runSeq f (p :: ps) ts₁) (runSeq f (p :: ps) ts₂) := by
  exact .inl ⟨by simp only [runSeq, h₁], by simp only [runSeq, h₂]⟩

theorem StopsAtBorders.runSeq (hn : StopsAtBorders takes inside rules n)
    (hinside : EnclosuresSound takes inside rules) (hb : Border.Sound takes inside rules b)
    (hxs : Starts b.left xs) (hys : Starts b.right ys) {stack : List Enclosure} {ps : List (Peg σ)}
    (hps : clearSeq takes inside b stack ps = true) (hus : walk b.colons stack us = some []) :
    Agree b.colons xs ys (runSeq (run rules n) ps (us ++ xs)) (runSeq (run rules n) ps (us ++ ys)) := by
  induction ps generalizing stack us with
  | nil =>
    have hstack : stack = [] := by simpa [clearSeq] using hps
    rw [hstack] at hus
    exact .inr ⟨[], us, hus, rfl, rfl⟩
  | cons p ps ih =>
    rcases clearSeq_cons hps with ⟨m, next, rfl, hborder, hnext, hps⟩ | ⟨rfl, hp, hps⟩ | ⟨e, outer, rfl, he, hp, hps⟩
    · cases us with
      | nil =>
        obtain ⟨hleft, hright⟩ := hborder (Option.some.inj hus)
        exact .fail (run_tok_starts hxs hleft) (run_tok_starts hys hright)
      | cons t us =>
        rw [walk_cons] at hus
        obtain ⟨next', htoken, hus⟩ := Option.bind_eq_some_iff.mp hus
        cases n with
        | zero => exact .fail rfl rfl
        | succ n =>
          cases haccepts : m.accepts t with
          | false =>
            refine .fail ?_ ?_ <;>
              rw [List.cons_append, run_tok_cons, haccepts] <;> rfl
          | true =>
            have hnext' : next' = next :=
              Option.some.inj (htoken.symm.trans (Match.nest?_accepts hnext (nestToken_proper htoken) haccepts))
            rw [hnext'] at hus
            have htake : ∀ ts, run rules (n + 1) (tok m) (t :: ts) = some ([.leaf t], ts) := fun ts => by
              rw [run_tok_cons, haccepts]
              rfl
            exact .cons (htake _) (htake _) (ih hps hus)
    · rcases hn hb hp hxs hys hus with ⟨h₁, h₂⟩ | ⟨trees, vs, hvs, h₁, h₂⟩
      · exact .fail h₁ h₂
      · exact .cons h₁ h₂ (ih hps hvs)
    · -- Inside the enclosure the word that closes it is the border on both sides.
      obtain ⟨ws, t, rest, rfl, hws, hkind, htext, hrest⟩ := walk_open (List.nil_append (e :: outer)) he hus
      obtain ⟨hleft, hright, hcolons, hsound⟩ := hinside e he
      rw [← hcolons] at hws
      simp only [List.append_assoc, List.cons_append]
      have hxs' : Starts (inside e).left (t :: (rest ++ xs)) := ⟨t, _, rfl, hkind, htext.trans hleft.symm⟩
      have hys' : Starts (inside e).right (t :: (rest ++ ys)) := ⟨t, _, rfl, hkind, htext.trans hright.symm⟩
      rcases hn hsound hp hxs' hys' hws with ⟨h₁, h₂⟩ | ⟨trees, vs, hvs, h₁, h₂⟩
      · exact .fail h₁ h₂
      · refine .cons h₁ h₂ ?_
        rw [hcolons] at hvs
        have hwalk : walk b.colons (e :: outer) (vs ++ t :: rest) = some [] := by
          have hopen : walk b.colons ([] ++ e :: outer) vs = some (e :: outer) :=
            walk_append_outer hvs (by simpa using he)
          rw [walk_append, ← List.nil_append (e :: outer), hopen, Option.bind_some, walk_cons,
            nestToken_close he hkind htext]
          exact hrest
        simpa using ih hps hwalk

theorem StopsAtBorders.runAlt (hn : StopsAtBorders takes inside rules n) (hb : Border.Sound takes inside rules b)
    (hxs : Starts b.left xs) (hys : Starts b.right ys) {ps : List (Peg σ)}
    (hps : clearAll takes inside b ps = true) (hus : Balanced b.colons us) :
    Agree b.colons xs ys (runAlt (run rules n) ps (us ++ xs)) (runAlt (run rules n) ps (us ++ ys)) := by
  induction ps with
  | nil => exact .inl ⟨rfl, rfl⟩
  | cons p ps ih =>
    rw [clearAll, Bool.and_eq_true] at hps
    rw [Peg.runAlt, Peg.runAlt]
    rcases hn hb hps.1 hxs hys hus with ⟨h₁, h₂⟩ | ⟨trees, vs, hvs, h₁, h₂⟩
    · simp only [h₁, h₂]
      exact ih hps.2
    · exact .inr ⟨trees, vs, hvs, by simp only [h₁], by simp only [h₂]⟩

/-- How often an expression is repeated does not depend on what follows, as long as the bounds do not matter. -/
theorem StopsAtBorders.runMany (hn : StopsAtBorders takes inside rules n) (hb : Border.Sound takes inside rules b)
    (hxs : Starts b.left xs) (hys : Starts b.right ys) {p : Peg σ} (hp : p.clear takes inside b = true)
    (hus : Balanced b.colons us) (k₁ k₂ : Nat) (hk₁ : us.length < k₁) (hk₂ : us.length < k₂) :
    ∃ trees vs, Balanced b.colons vs ∧ runMany (run rules n p) k₁ (us ++ xs) = (trees, vs ++ xs) ∧
      runMany (run rules n p) k₂ (us ++ ys) = (trees, vs ++ ys) := by
  induction k₁ generalizing us k₂ with
  | zero => omega
  | succ k₁ ih =>
    cases k₂ with
    | zero => omega
    | succ k₂ =>
      rw [Peg.runMany, Peg.runMany]
      rcases hn hb hp hxs hys hus with ⟨h₁, h₂⟩ | ⟨trees, vs, hvs, h₁, h₂⟩
      · exact ⟨[], us, hus, by simp only [h₁], by simp only [h₂]⟩
      · simp only [h₁, h₂, List.length_append, Nat.add_lt_add_iff_right]
        by_cases hlt : vs.length < us.length
        · obtain ⟨more, ws, hws, hm₁, hm₂⟩ := ih hvs k₂ (by omega) (by omega)
          exact ⟨trees ++ more, ws, hws, by rw [if_pos hlt, hm₁], by rw [if_pos hlt, hm₂]⟩
        · exact ⟨[], us, hus, by rw [if_neg hlt], by rw [if_neg hlt]⟩

theorem StopsAtBorders.runStep (hn : StopsAtBorders takes inside rules n) (hb : Border.Sound takes inside rules b)
    (hprogress : Progresses takes (run rules n)) (hxs : Starts b.left xs) (hys : Starts b.right ys)
    {steps : List (Kind × Peg σ)} (hsteps : clearSteps takes inside b steps = true) (hus : Balanced b.colons us) :
    (runStep (run rules n) steps (us ++ xs) = none ∧ runStep (run rules n) steps (us ++ ys) = none) ∨
      ∃ k trees vs, Balanced b.colons vs ∧ vs.length < us.length ∧
        runStep (run rules n) steps (us ++ xs) = some (k, trees, vs ++ xs) ∧
        runStep (run rules n) steps (us ++ ys) = some (k, trees, vs ++ ys) := by
  induction steps with
  | nil => exact .inl ⟨rfl, rfl⟩
  | cons s steps ih =>
    obtain ⟨k, p⟩ := s
    rw [clearSteps, Bool.and_eq_true, Bool.and_eq_true] at hsteps
    rw [Peg.runStep, Peg.runStep]
    rcases hn hb hsteps.1.2 hxs hys hus with ⟨h₁, h₂⟩ | ⟨trees, vs, hvs, h₁, h₂⟩
    · simp only [h₁, h₂]
      exact ih hsteps.2
    · have hlt := (hprogress _ _ _ _ h₁).2 hsteps.1.1
      rw [List.length_append, List.length_append] at hlt
      exact .inr ⟨k, trees, vs, hvs, by omega, by simp only [h₁], by simp only [h₂]⟩

theorem StopsAtBorders.runExtend (hn : StopsAtBorders takes inside rules n) (hb : Border.Sound takes inside rules b)
    (hprogress : Progresses takes (run rules n)) (hxs : Starts b.left xs) (hys : Starts b.right ys)
    {steps : List (Kind × Peg σ)} (hsteps : clearSteps takes inside b steps = true) (hus : Balanced b.colons us)
    (k₁ k₂ : Nat) (hk₁ : us.length < k₁) (hk₂ : us.length < k₂) (first : List SyntaxTree) :
    ∃ trees vs, Balanced b.colons vs ∧ runExtend (run rules n) steps k₁ first (us ++ xs) = (trees, vs ++ xs) ∧
      runExtend (run rules n) steps k₂ first (us ++ ys) = (trees, vs ++ ys) := by
  induction k₁ generalizing us k₂ first with
  | zero => omega
  | succ k₁ ih =>
    cases k₂ with
    | zero => omega
    | succ k₂ =>
      rw [Peg.runExtend, Peg.runExtend]
      rcases hn.runStep hb hprogress hxs hys hsteps hus with ⟨h₁, h₂⟩ | ⟨k, trees, vs, hvs, hlt, h₁, h₂⟩
      · exact ⟨first, us, hus, by simp only [h₁], by simp only [h₂]⟩
      · simp only [h₁, h₂]
        exact ih hvs k₂ (by omega) (by omega) _

/-- Whether an expression lies ahead does not depend on what follows. -/
theorem StopsAtBorders.isNone_eq (hn : StopsAtBorders takes inside rules n) (hb : Border.Sound takes inside rules b)
    (hxs : Starts b.left xs) (hys : Starts b.right ys) {p : Peg σ}
    (hp : (p.clear takes inside b || p.alike b) = true) (hus : Balanced b.colons us) :
    (run rules n p (us ++ xs)).isNone = (run rules n p (us ++ ys)).isNone := by
  rw [Bool.or_eq_true] at hp
  rcases hp with hclear | halike
  · rcases hn hb hclear hxs hys hus with ⟨h₁, h₂⟩ | ⟨trees, vs, hvs, h₁, h₂⟩ <;> rw [h₁, h₂] <;> rfl
  · cases p with
    | tok m =>
      have halike : m.takes b.left = m.takes b.right := by simpa [alike] using halike
      cases n with
      | zero => rfl
      | succ n =>
        cases us with
        | nil =>
          obtain ⟨x, rest₁, rfl, hkind₁, htext₁⟩ := hxs
          obtain ⟨y, rest₂, rfl, hkind₂, htext₂⟩ := hys
          rw [List.nil_append, List.nil_append, run_tok_cons, run_tok_cons, Match.accepts_eq_takes hkind₁ htext₁,
            Match.accepts_eq_takes hkind₂ htext₂, halike]
          split <;> rfl
        | cons t us =>
          rw [List.cons_append, List.cons_append, run_tok_cons, run_tok_cons]
          split <;> rfl
    | _ => cases halike

/-- Expressions that are clear of a border stop in front of it. -/
theorem run_stopsAtBorders (htakes : ∀ s, takes s = true → (rules s).consumes takes = true)
    (hinside : EnclosuresSound takes inside rules) (n : Nat) : StopsAtBorders takes inside rules n := by
  induction n with
  | zero => exact fun _ _ _ _ _ => .inl ⟨rfl, rfl⟩
  | succ n ih =>
    intro b p us xs ys hb hp hxs hys hus
    have hlength : ∀ {s ts}, Starts s ts → 0 < ts.length := by
      rintro s ts ⟨t, rest, rfl, -⟩
      exact Nat.succ_pos _
    cases p with
    | tok m =>
      simp only [clear, Bool.and_eq_true, Bool.not_eq_true', beq_iff_eq] at hp
      cases us with
      | nil => exact .inl ⟨run_tok_starts hxs hp.1.1, run_tok_starts hys hp.1.2⟩
      | cons t us =>
        obtain ⟨next, htoken, hus⟩ := Option.bind_eq_some_iff.mp ((walk_cons ..).symm.trans hus)
        rw [List.cons_append, List.cons_append, run_tok_cons, run_tok_cons]
        cases haccepts : m.accepts t with
        | false => exact .inl ⟨rfl, rfl⟩
        | true =>
          have hnext : next = [] :=
            Option.some.inj (htoken.symm.trans (Match.nest?_accepts hp.2 (nestToken_proper htoken) haccepts))
          rw [hnext] at hus
          exact .inr ⟨_, us, hus, rfl, rfl⟩
    | sym s => exact ih hb (hb s hp) hxs hys hus
    | seq ps => exact ih.runSeq hinside hb hxs hys hp hus
    | alt ps => exact ih.runAlt hb hxs hys hp hus
    | many p =>
      have hx := hlength hxs
      have hy := hlength hys
      obtain ⟨trees, vs, hvs, h₁, h₂⟩ := ih.runMany hb hxs hys (p := p) hp hus (us ++ xs).length
        (us ++ ys).length (by rw [List.length_append]; omega) (by rw [List.length_append]; omega)
      exact .inr ⟨trees, vs, hvs, congrArg some h₁, congrArg some h₂⟩
    | ahead p =>
      have hsame := ih.isNone_eq hb hxs hys hp hus
      rw [run, run]
      cases h₁ : run rules n p (us ++ xs) <;> cases h₂ : run rules n p (us ++ ys) <;> simp only [h₁, h₂] at hsame
      · exact .inl ⟨rfl, rfl⟩
      · cases hsame
      · cases hsame
      · exact .inr ⟨[], us, hus, rfl, rfl⟩
    | never p =>
      have hsame := ih.isNone_eq hb hxs hys hp hus
      rw [run, run, ← hsame]
      split
      · exact .inr ⟨[], us, hus, rfl, rfl⟩
      · exact .inl ⟨rfl, rfl⟩
    | stop =>
      have hx := hlength hxs
      have hy := hlength hys
      refine .inl ⟨?_, ?_⟩ <;>
        · rw [run, if_neg]
          rw [List.isEmpty_iff, ← List.length_eq_zero_iff, List.length_append]
          omega
    | node k p | build k p =>
      rw [run, run]
      rcases ih hb (p := p) hp hxs hys hus with ⟨h₁, h₂⟩ | ⟨trees, vs, hvs, h₁, h₂⟩ <;> rw [h₁, h₂]
      · exact .inl ⟨rfl, rfl⟩
      · exact .inr ⟨_, vs, hvs, rfl, rfl⟩
    | only c p =>
      rw [run, run]
      rcases ih hb (p := p) hp hxs hys hus with ⟨h₁, h₂⟩ | ⟨trees, vs, hvs, h₁, h₂⟩ <;> rw [h₁, h₂]
      · exact .inl ⟨rfl, rfl⟩
      · cases hholds : c.holds trees with
        | false => exact .inl ⟨by simp [hholds], by simp [hholds]⟩
        | true => exact .inr ⟨trees, vs, hvs, by simp [hholds], by simp [hholds]⟩
    | extend p steps =>
      rw [clear, Bool.and_eq_true] at hp
      have hx := hlength hxs
      have hy := hlength hys
      rw [run, run]
      rcases ih hb (p := p) hp.1 hxs hys hus with ⟨h₁, h₂⟩ | ⟨first, vs, hvs, h₁, h₂⟩
      · rw [h₁, h₂]
        exact .inl ⟨rfl, rfl⟩
      · have hle := (run_progresses htakes n _ _ _ _ h₁).1
        rw [List.length_append, List.length_append] at hle
        obtain ⟨trees, ws, hws, he₁, he₂⟩ := ih.runExtend hb (run_progresses htakes n) hxs hys hp.2 hvs
          (us ++ xs).length (us ++ ys).length (by rw [List.length_append]; omega)
          (by rw [List.length_append]; omega) first
        rw [h₁, h₂]
        exact .inr ⟨trees, ws, hws, congrArg some he₁, congrArg some he₂⟩

end

end Peg

namespace Grammar

open Peg Nonterminal

/-! ## The borders of the grammar -/

/-- The symbols that are read inside brackets. -/
def enclosed (colons : Bool) : Nonterminal → Bool
  | withItem | line => false
  | s => nested colons s

/-- What closes an enclosure is its border. -/
def inside (e : Enclosure) : Border Nonterminal := ⟨e.close, e.close, e.colons, enclosed e.colons⟩

theorem enclosures_sound : EnclosuresSound takes inside rules := by
  intro e he
  refine ⟨rfl, rfl, rfl, fun s => ?_⟩
  cases e with
  | conversion => exact absurd rfl he
  | _ => cases s <;> decide

/-- The symbols for expressions that hold no comma of their own. -/
def operand : Nonterminal → Bool
  | starExpressions | comprehension | starTargets | slices | callArguments | .arguments | lambdaParameters | yielding
  | parameters | patterns | sequencePattern | smallStatement | simple | withItem | line | caseLine => false
  | _ => true

/-- An argument that is followed by one of these words, and then by the other. -/
def argumentBorder (left right : String) : Border Nonterminal := ⟨left, right, false, operand⟩

theorem argumentBorder_sound {left right : String} (hleft : left ∈ [",", ")"]) (hright : right ∈ [",", ")"]) :
    Border.Sound takes inside rules (argumentBorder left right) := by
  intro s
  simp only [List.mem_cons, List.not_mem_nil, or_false] at hleft hright
  rcases hleft with rfl | rfl <;> rcases hright with rfl | rfl <;> cases s <;> decide

/-- An annotation that is followed by a colon, and then by an equals sign. -/
theorem annotationBorder_sound : Border.Sound takes inside rules ⟨":", "=", false, operand⟩ := by
  intro s
  cases s <;> decide

theorem run_eq_read_of_le {p : E} (hp : Small p) {ts : List Token} {n : Nat} (hn : 256 * (ts.length + 1) ≤ n) :
    run rules n p ts = read p ts := by
  have hrank := leftRank_le_of_within hp
  refine run_sameWithin consumes_rules leftRank_rules within_rules _ _ p ts hp ?_
  unfold depth
  omega

/-- What follows does not matter, if it starts with the words of a border. -/
theorem read_border {b : Border Nonterminal} (hb : Border.Sound takes inside rules b) {p : E} (hsmall : Small p)
    (hp : p.clear takes inside b = true) {us xs ys : List Token} (hxs : Starts b.left xs) (hys : Starts b.right ys)
    (hus : Balanced b.colons us) : Agree b.colons xs ys (read p (us ++ xs)) (read p (us ++ ys)) := by
  have hread := run_stopsAtBorders consumes_rules enclosures_sound
    (max (256 * ((us ++ xs).length + 1)) (256 * ((us ++ ys).length + 1))) hb hp hxs hys hus
  rwa [run_eq_read_of_le hsmall (Nat.le_max_left _ _), run_eq_read_of_le hsmall (Nat.le_max_right _ _)] at hread

/-- An expression that is read up to a border is read as the same trees where the other word of the border follows. -/
theorem read_moved {b : Border Nonterminal} (hb : Border.Sound takes inside rules b) {p : E} (hsmall : Small p)
    (hp : p.clear takes inside b = true) (hnests : p.nests nested b.colons = true) {us xs ys : List Token}
    {trees : List SyntaxTree} (hproper : ∀ t ∈ us ++ xs, t.Proper) (hxs : Starts b.left xs) (hys : Starts b.right ys)
    (h : read p (us ++ xs) = some (trees, xs)) : read p (us ++ ys) = some (trees, ys) := by
  obtain ⟨us', hus', hbalanced⟩ := read_balanced _ hnests hproper h
  obtain rfl := List.append_cancel_right hus'
  rcases read_border hb hsmall hp hxs hys hbalanced with ⟨hnone, -⟩ | ⟨trees', vs, -, h₁, h₂⟩
  · rw [hnone] at h
    cases h
  · obtain ⟨rfl, hvs⟩ := Prod.mk.inj (Option.some.inj (h₁.symm.trans h))
    rw [List.append_left_eq_self.mp hvs] at h₂
    exact h₂

end Grammar

end Conformance.Source
