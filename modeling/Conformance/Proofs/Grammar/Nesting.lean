import Conformance.Proofs.Grammar.Settled
import Conformance.Source.Lexeme

/-!
# Nesting

Brackets, the parameters of a `lambda` and the conversion of a field open and close within an expression.  `walk`
follows what is open along some tokens, and tokens that leave nothing open are `Balanced`.

* An expression of the grammar takes balanced tokens (`read_balanced`), for every grammar whose expressions pass the
  check `Peg.nests`.
* `walk_open` splits tokens at the place where what is open at their start is closed.
-/

namespace Conformance.Source

open SyntaxTree (leavesAll leavesAll_append leavesAll_group)

/-- What may be open inside an expression. -/
inductive Enclosure where
  | round
  | square
  | curly
  /-- What stands between `lambda` and its colon. -/
  | parameters
  /-- What stands after `!`: one name. -/
  | conversion
  deriving DecidableEq, Repr

namespace Enclosure

/-- What a word opens. -/
def opened? (s : String) : Option Enclosure :=
  if s = "(" then some round
  else if s = "[" then some square
  else if s = "\x7b" then some curly
  else if s = "lambda" then some parameters
  else if s = "!" then some conversion
  else none

/-- The word that closes.  A conversion is closed by any name. -/
def close : Enclosure → String
  | round => ")"
  | square => "]"
  | curly => "\x7d"
  | parameters => ":"
  | conversion => ""

/-- Whether a colon may stand directly inside. -/
def colons : Enclosure → Bool
  | round | square | curly => true
  | _ => false

end Enclosure

/-- The words that close brackets, and the semicolon, which stands inside nothing. -/
def closers : List String := [")", "]", "\x7d", ";"]

/-- The texts of operators and brackets, which no name has. -/
def punctuation : List String := operators ++ ["(", "[", "\x7b", "!"] ++ closers

/-- What is open after a word.  `colons` says whether a colon may stand where nothing is open. -/
def nestWord (colons : Bool) (stack : List Enclosure) (s : String) : Option (List Enclosure) :=
  match Enclosure.opened? s with
  | some e => some (e :: stack)
  | none =>
    match stack with
    | [] => if s ∈ closers ∨ (s = ":" ∧ colons = false) then none else some []
    | e :: outer => if s = e.close then some outer else if s ∈ closers then none else some (e :: outer)

/-- Whether a token is a word that could open or close something. -/
def Token.nests (t : Token) : Bool := t.kind == .operator || (t.kind == .name && t.text == "lambda")

/-- Whether a token is what its kind says: no name is a bracket. -/
def Token.Proper (t : Token) : Prop := t.kind = .name → t.text ∉ punctuation

instance (t : Token) : Decidable t.Proper := inferInstanceAs (Decidable (_ → _))

theorem Token.proper_of_operator {t : Token} (h : t.kind = .operator) : t.Proper := by
  intro hname
  cases h.symm.trans hname

/-- What is open after a token. -/
def nestToken (colons : Bool) (stack : List Enclosure) (t : Token) : Option (List Enclosure) :=
  if t.Proper then
    match stack with
    | .conversion :: outer => if t.kind = .name then some outer else none
    | stack => if t.nests then nestWord colons stack t.text else some stack
  else none

/-- What is open after some tokens. -/
def walk (colons : Bool) (stack : List Enclosure) (ts : List Token) : Option (List Enclosure) :=
  ts.foldlM (nestToken colons) stack

/-- Tokens that close what they open, and nothing else. -/
def Balanced (colons : Bool) (ts : List Token) : Prop := walk colons [] ts = some []

@[simp] theorem walk_nil (colons : Bool) (stack : List Enclosure) : walk colons stack [] = some stack := rfl

theorem walk_cons (colons : Bool) (stack : List Enclosure) (t : Token) (ts : List Token) :
    walk colons stack (t :: ts) = (nestToken colons stack t).bind fun next => walk colons next ts := by
  rfl

theorem walk_append (colons : Bool) (stack : List Enclosure) (ts us : List Token) :
    walk colons stack (ts ++ us) = (walk colons stack ts).bind fun next => walk colons next us := by
  simp only [walk, List.foldlM_append, Option.bind_eq_bind]

theorem Balanced.nil (colons : Bool) : Balanced colons [] := rfl

theorem Balanced.append {colons : Bool} {us vs : List Token} (hus : Balanced colons us) (hvs : Balanced colons vs) :
    Balanced colons (us ++ vs) := by
  rw [Balanced, walk_append, hus]
  exact hvs

/-- Whether a colon may stand where the stack is open. -/
def colonsIn (colons : Bool) : List Enclosure → Bool
  | [] => colons
  | e :: _ => e.colons

section
variable {colons : Bool} {stack next outer inner : List Enclosure} {e : Enclosure} {t : Token}

/-- A word inside an enclosure closes it, or does there what it does by itself. -/
theorem nestWord_inside {s : String} (he : e ≠ .conversion) :
    nestWord colons (inner ++ e :: outer) s =
      if inner = [] ∧ Enclosure.opened? s = none ∧ s = e.close then some outer
      else (nestWord e.colons inner s).map (· ++ e :: outer) := by
  unfold nestWord
  cases Enclosure.opened? s with
  | some f => simp
  | none =>
    cases inner with
    | cons f inner => by_cases hclose : s = f.close <;> by_cases hother : s ∈ closers <;> simp [hclose, hother]
    | nil =>
      by_cases hclose : s = e.close
      · simp [hclose]
      · have hcolon : ¬(s = ":" ∧ e.colons = false) := by
          rintro ⟨rfl, hinside⟩
          cases e <;> simp_all [Enclosure.close, Enclosure.colons]
        by_cases hother : s ∈ closers <;> simp [hclose, hother, hcolon]

theorem nestToken_proper (h : nestToken colons stack t = some next) : t.Proper := by
  unfold nestToken at h
  split at h
  · assumption
  · cases h

theorem nestToken_conversion (ht : t.Proper) :
    nestToken colons (.conversion :: outer) t = if t.kind = .name then some outer else none := by
  rw [nestToken, if_pos ht]

theorem nestToken_word (ht : t.Proper) (hword : t.nests = true) (hstack : stack.head? ≠ some .conversion) :
    nestToken colons stack t = nestWord colons stack t.text := by
  unfold nestToken
  rw [if_pos ht]
  split
  · exact absurd rfl hstack
  · rw [if_pos hword]

theorem nestToken_plain (ht : t.Proper) (hword : t.nests = false) (hstack : stack.head? ≠ some .conversion) :
    nestToken colons stack t = some stack := by
  unfold nestToken
  rw [if_pos ht]
  split
  · exact absurd rfl hstack
  · rw [if_neg (by simp [hword])]

/-- A token inside an enclosure closes it, or is a token of what stands inside. -/
theorem nestToken_inside (he : e ≠ .conversion) :
    nestToken colons (inner ++ e :: outer) t =
      if inner = [] ∧ t.kind = .operator ∧ t.text = e.close then some outer
      else (nestToken e.colons inner t).map (· ++ e :: outer) := by
  by_cases ht : t.Proper
  · by_cases hhead : inner.head? = some .conversion
    · obtain ⟨inner, rfl⟩ := List.head?_eq_some_iff.mp hhead
      rw [List.cons_append, nestToken_conversion ht, nestToken_conversion ht]
      split <;> simp
    · have hwhole : (inner ++ e :: outer).head? ≠ some .conversion := by
        cases inner with
        | nil => simpa using he
        | cons f inner => exact hhead
      cases hword : t.nests with
      | true =>
        have hcloses : (Enclosure.opened? t.text = none ∧ t.text = e.close) ↔ (t.kind = .operator ∧ t.text = e.close) := by
          refine and_congr_left fun hclose => iff_of_true ?_ ?_
          · rw [hclose]
            cases e <;> rfl
          · simp only [Token.nests, hclose, Bool.or_eq_true, Bool.and_eq_true, beq_iff_eq] at hword
            exact hword.resolve_right fun hlambda => by cases e <;> exact absurd hlambda.2 (by decide)
        simp only [nestToken_word ht hword hwhole, nestToken_word ht hword hhead, nestWord_inside he, hcloses]
      | false =>
        rw [nestToken_plain ht hword hwhole, nestToken_plain ht hword hhead, if_neg]
        · rfl
        · rintro ⟨-, hkind, -⟩
          simp [Token.nests, hkind] at hword
  · have hkind : t.kind ≠ .operator := fun hkind => ht (Token.proper_of_operator hkind)
    simp [nestToken, ht, hkind]

/-- What is open further out does not matter to tokens that close nothing of it. -/
theorem walk_append_outer {ts : List Token} (h : walk (colonsIn colons outer) stack ts = some [])
    (houter : outer.head? ≠ some .conversion) : walk colons (stack ++ outer) ts = some outer := by
  cases outer with
  | nil => exact (congrArg (walk colons · ts) (List.append_nil stack)).trans h
  | cons e outer =>
    have he : e ≠ .conversion := by simpa using houter
    rw [colonsIn] at h
    induction ts generalizing stack with
    | nil => cases h; rfl
    | cons t ts ih =>
      rw [walk_cons] at h ⊢
      obtain ⟨next, htoken, hrest⟩ := Option.bind_eq_some_iff.mp h
      rw [nestToken_inside he, if_neg, htoken]
      · exact ih hrest
      · rintro ⟨rfl, hkind, htext⟩
        rw [nestToken_word (Token.proper_of_operator hkind) (by simp [Token.nests, hkind]) (by simp), htext] at htoken
        cases e <;> first | exact he rfl | cases htoken

theorem nestToken_close (he : e ≠ .conversion) (hkind : t.kind = .operator) (htext : t.text = e.close) :
    nestToken colons (e :: outer) t = some outer := by
  rw [← List.nil_append (e :: outer), nestToken_inside he, if_pos ⟨rfl, hkind, htext⟩]

/-- Tokens that close everything close an enclosure at one of them. -/
theorem walk_open {ts : List Token} (hstack : inner ++ e :: outer = stack)
    (he : e ≠ .conversion) (h : walk colons stack ts = some []) :
    ∃ ws t rest, ts = ws ++ t :: rest ∧ walk e.colons inner ws = some [] ∧ t.kind = .operator ∧ t.text = e.close ∧
      walk colons outer rest = some [] := by
  induction ts generalizing inner stack with
  | nil => simp [← hstack] at h
  | cons t ts ih =>
    rw [walk_cons, ← hstack] at h
    obtain ⟨next, htoken, hrest⟩ := Option.bind_eq_some_iff.mp h
    rw [nestToken_inside he] at htoken
    split at htoken
    · next hclose =>
      cases htoken
      exact ⟨[], t, ts, rfl, hclose.1 ▸ rfl, hclose.2.1, hclose.2.2, hrest⟩
    · obtain ⟨inner', hinner, rfl⟩ := Option.map_eq_some_iff.mp htoken
      obtain ⟨ws, u, rest, rfl, hws, hkind, htext, houter⟩ := ih rfl hrest
      refine ⟨t :: ws, u, rest, rfl, ?_, hkind, htext, houter⟩
      rw [walk_cons, hinner]
      exact hws

end

/-! ## Expressions -/

/-- What is open after a token that is matched. -/
def Match.nest? (colons : Bool) (stack : List Enclosure) : Match → Option (List Enclosure)
  | word s => if stack.head? = some .conversion then none else nestWord colons stack s
  | name => if stack.head? = some .conversion then none else some stack
  | kind k =>
    if stack.head? = some .conversion then (if k = .name then some stack.tail else none)
    else if k = .operator ∨ k = .name then none else some stack

theorem nestWord_plain {colons : Bool} {stack : List Enclosure} {s : String} (hstack : stack.head? ≠ some .conversion)
    (hmarks : s ∉ punctuation) (hlambda : s ≠ "lambda") : nestWord colons stack s = some stack := by
  have hne : ∀ w ∈ punctuation, s ≠ w := fun w hw hs => hmarks (hs ▸ hw)
  have hclosers : s ∉ closers := fun hs => hmarks (List.mem_append_right _ hs)
  have hcolon : s ≠ ":" := hne ":" (by decide)
  have hopen : Enclosure.opened? s = none := by
    simp [Enclosure.opened?, hne "(" (by decide), hne "[" (by decide), hne "\x7b" (by decide), hlambda,
      hne "!" (by decide)]
  unfold nestWord
  rw [hopen]
  cases stack with
  | nil => simp [hclosers, hcolon]
  | cons e outer =>
    have hclose : s ≠ e.close := by
      rintro rfl
      cases e <;> simp_all [Enclosure.close, closers]
    simp [hclosers, hclose]

/-- A token does what its match says. -/
theorem Match.nest?_accepts {m : Match} {colons : Bool} {stack next : List Enclosure} {t : Token}
    (h : m.nest? colons stack = some next) (ht : t.Proper) (haccepts : m.accepts t = true) :
    nestToken colons stack t = some next := by
  cases m with
  | word s =>
    rw [nest?] at h
    split at h
    · cases h
    · next hstack =>
      simp only [accepts, Bool.and_eq_true, Bool.or_eq_true, beq_iff_eq] at haccepts
      obtain ⟨hkind, rfl⟩ := haccepts
      cases hword : t.nests with
      | true => rw [nestToken_word ht hword hstack, h]
      | false =>
        simp only [Token.nests, Bool.or_eq_false_iff, Bool.and_eq_false_iff, beq_eq_false_iff_ne] at hword
        have hname : t.kind = .name := hkind.resolve_left hword.1
        have hlambda : t.text ≠ "lambda" := hword.2.resolve_left (absurd hname)
        rw [nestWord_plain hstack (ht hname) hlambda] at h
        rw [nestToken_plain ht _ hstack, h]
        simp [Token.nests, hname, hlambda]
  | name =>
    rw [nest?] at h
    split at h
    · cases h
    · next hstack =>
      simp only [accepts, Bool.and_eq_true, Bool.not_eq_true', beq_iff_eq] at haccepts
      cases h
      have hlambda : t.text ≠ "lambda" := by
        intro hlambda
        rw [hlambda] at haccepts
        exact absurd haccepts.2 (by decide)
      exact nestToken_plain ht (by simp [Token.nests, haccepts.1, hlambda]) hstack
  | kind k =>
    have hkind : t.kind = k := by simpa [accepts] using haccepts
    subst hkind
    rw [nest?] at h
    split at h
    · next hhead =>
      obtain ⟨outer, rfl⟩ := List.head?_eq_some_iff.mp hhead
      exact (nestToken_conversion ht).trans h
    · next hstack =>
      split at h
      · cases h
      · next hplain =>
        cases h
        rw [not_or] at hplain
        exact nestToken_plain ht (by simp [Token.nests, hplain.1, hplain.2]) hstack

namespace Peg

variable {σ : Type}

section
variable (nested : Bool → σ → Bool)

mutual

/-- Whether an expression takes balanced tokens, given which symbols do. -/
def nests (colons : Bool) : Peg σ → Bool
  | tok m => m.nest? colons [] == some []
  | sym s => nested colons s
  | seq ps => nestsSeq colons [] ps
  | alt ps => nestsAll colons ps
  | many p => p.nests colons
  | ahead _ => true
  | never _ => true
  | stop => true
  | node _ p => p.nests colons
  | build _ p => p.nests colons
  | only _ p => p.nests colons
  | extend p steps => p.nests colons && nestsSteps colons steps

/-- Whether parts that follow each other close what is open and what they open themselves. -/
def nestsSeq (colons : Bool) (stack : List Enclosure) : List (Peg σ) → Bool
  | [] => stack == []
  | tok m :: ps =>
    match m.nest? colons stack with
    | some next => nestsSeq colons next ps
    | none => false
  | p :: ps => stack.head? != some .conversion && p.nests (colonsIn colons stack) && nestsSeq colons stack ps

def nestsAll (colons : Bool) : List (Peg σ) → Bool
  | [] => true
  | p :: ps => p.nests colons && nestsAll colons ps

def nestsSteps (colons : Bool) : List (Kind × Peg σ) → Bool
  | [] => true
  | (_, p) :: steps => p.nests colons && nestsSteps colons steps

end

variable {nested}

/-- The first of some parts is a token that opens or closes, or any part that is balanced where it stands. -/
theorem nestsSeq_cons {colons : Bool} {stack : List Enclosure} {p : Peg σ} {ps : List (Peg σ)}
    (h : nestsSeq nested colons stack (p :: ps) = true) :
    (∃ m next, p = tok m ∧ m.nest? colons stack = some next ∧ nestsSeq nested colons next ps = true) ∨
      (stack.head? ≠ some .conversion ∧ p.nests nested (colonsIn colons stack) = true ∧
        nestsSeq nested colons stack ps = true) := by
  cases p with
  | tok m =>
    rw [nestsSeq] at h
    split at h
    · next next hnext => exact .inl ⟨m, next, rfl, hnext, h⟩
    · cases h
  | _ =>
    rw [nestsSeq, Bool.and_eq_true, Bool.and_eq_true, bne_iff_ne] at h
    · exact .inr ⟨h.1.1, h.1.2, h.2⟩
    · nofun

theorem nests_of_nestsAll {colons : Bool} {p : Peg σ} {ps : List (Peg σ)} (h : nestsAll nested colons ps = true)
    (hp : p ∈ ps) : p.nests nested colons = true := by
  induction hp with
  | head => exact (Bool.and_eq_true_iff.mp h).1
  | tail _ _ ih => exact ih (Bool.and_eq_true_iff.mp h).2

theorem nests_of_nestsSteps {colons : Bool} {s : Kind × Peg σ} {steps : List (Kind × Peg σ)}
    (h : nestsSteps nested colons steps = true) (hs : s ∈ steps) : s.2.nests nested colons = true := by
  induction hs with
  | head => exact (Bool.and_eq_true_iff.mp h).1
  | tail _ _ ih => exact ih (Bool.and_eq_true_iff.mp h).2

/-- What is derived is balanced, if the expressions of the grammar are.  Parts that follow each other may close what is
open before them. -/
theorem Derives.walks {rules : σ → Peg σ}
    (hrules : ∀ colons s, nested colons s = true → (rules s).nests nested colons = true) {p : Peg σ}
    {ts rest : List Token} {xs : List SyntaxTree} (h : Derives rules p ts xs rest)
    (hxs : ∀ t ∈ leavesAll xs, t.Proper) :
    (∀ colons, p.nests nested colons = true → Balanced colons (leavesAll xs)) ∧
      ∀ ps colons stack, p = .seq ps → nestsSeq nested colons stack ps = true →
        walk colons stack (leavesAll xs) = some [] := by
  induction h with
  | @tok m t ts haccepts =>
    refine ⟨fun colons hp => ?_, nofun⟩
    have hnest : m.nest? colons [] = some [] := by simpa [nests] using hp
    show walk colons [] [t] = some []
    rw [walk_cons, Match.nest?_accepts hnest (hxs t List.mem_cons_self) haccepts]
    rfl
  | sym _ ih => exact ⟨fun colons hp => (ih hxs).1 colons (hrules colons _ hp), nofun⟩
  | nil =>
    have hnil : ∀ ps colons stack, seq [] = .seq ps → nestsSeq nested colons stack ps = true →
        walk colons stack [] = some [] := by
      rintro _ colons stack ⟨⟩ hps
      rw [walk_nil, show stack = [] by simpa [nestsSeq] using hps]
    exact ⟨fun colons _ => .nil colons, hnil⟩
  | @cons p ps ts xs mid ys rest hread _ ih ih' =>
    rw [leavesAll_append] at hxs ⊢
    obtain ⟨hxs, hys⟩ := List.forall_mem_append.mp hxs
    have hwalk : ∀ qs colons stack, seq (p :: ps) = .seq qs → nestsSeq nested colons stack qs = true →
        walk colons stack (leavesAll xs ++ leavesAll ys) = some [] := by
      rintro _ colons stack ⟨⟩ hps
      rw [walk_append]
      rcases nestsSeq_cons hps with ⟨m, next, rfl, hnext, hps⟩ | ⟨hstack, hnests, hps⟩
      · cases hread with
        | @tok _ t _ haccepts =>
          show walk colons stack [t] >>= _ = some []
          rw [walk_cons, Match.nest?_accepts hnext (hxs t List.mem_cons_self) haccepts]
          exact (ih' hys).2 _ _ _ rfl hps
      · have hfirst : walk colons ([] ++ stack) (leavesAll xs) = some stack :=
          walk_append_outer ((ih hxs).1 _ hnests) hstack
        rw [← List.nil_append stack, hfirst]
        exact (ih' hys).2 _ _ _ rfl hps
    exact ⟨fun colons hp => hwalk _ colons [] rfl hp, hwalk⟩
  | alt hmem _ ih => exact ⟨fun colons hp => (ih hxs).1 colons (nests_of_nestsAll hp hmem), nofun⟩
  | done | ahead | never | stop => exact ⟨fun colons _ => .nil colons, nofun⟩
  | again _ _ ih ih' =>
    rw [leavesAll_append] at hxs ⊢
    obtain ⟨hxs, hys⟩ := List.forall_mem_append.mp hxs
    exact ⟨fun colons hp => ((ih hxs).1 colons hp).append ((ih' hys).1 colons hp), nofun⟩
  | node _ ih | build _ ih =>
    rw [leavesAll_group] at hxs ⊢
    exact ⟨(ih hxs).1, nofun⟩
  | only _ ih => exact ⟨(ih hxs).1, nofun⟩
  | first _ ih => exact ⟨fun colons hp => (ih hxs).1 colons (Bool.and_eq_true_iff.mp hp).1, nofun⟩
  | step _ hmem _ ih ih' =>
    rw [leavesAll_group, leavesAll_append] at hxs ⊢
    obtain ⟨hxs, hys⟩ := List.forall_mem_append.mp hxs
    refine ⟨fun colons hp => ((ih hxs).1 colons hp).append ((ih' hys).1 colons ?_), nofun⟩
    exact nests_of_nestsSteps (Bool.and_eq_true_iff.mp hp).2 hmem

end

end Peg

namespace Grammar

open Peg Nonterminal

/-- Which symbols take balanced tokens; the flag says whether a colon may stand outside of everything they open. -/
def nested (colons : Bool) : Nonterminal → Bool
  | slices | parameters | smallStatement => colons
  | simple | line | caseLine => false
  | _ => true

theorem nests_rules (colons : Bool) (s : Nonterminal) :
    nested colons s = true → (rules s).nests nested colons = true := by
  cases colons <;> cases s <;> decide

theorem read_balanced (colons : Bool) {p : E} (hp : p.nests nested colons = true) {ts rest : List Token}
    {xs : List SyntaxTree} (hts : ∀ t ∈ ts, t.Proper) (h : read p ts = some (xs, rest)) :
    ∃ us, ts = us ++ rest ∧ Balanced colons us := by
  have hsplit := run_lossless h
  refine ⟨_, hsplit.symm, ((run_derives h).walks nests_rules fun t ht => hts t ?_).1 colons hp⟩
  exact hsplit ▸ List.mem_append_left _ ht

end Grammar

end Conformance.Source
