import Conformance.Proofs.Grammar.Solid

/-!
# Attributes

In every tree that is read, what stands after the dot of an attribute is a name (`SyntaxTree.attributed`).  As for
trees that hold tokens, this is checked on the rules of the grammar: attributes are made only by steps that end with
a name (`attributes_rules`).
-/

namespace Conformance.Source

/-- The last one of two lists is the last one of the second list. -/
theorem any_getLast?_append {α : Type} {f : α → Bool} (xs : List α) {ys : List α} (h : ys.getLast?.any f = true) :
    (xs ++ ys).getLast?.any f = true := by
  obtain ⟨y, hy, hf⟩ := (Option.any_eq_true _ _).mp h
  rw [List.getLast?_append, hy]
  exact hf

namespace SyntaxTree

/-- Whether the tree is a name or keyword. -/
def isNameToken : SyntaxTree → Bool
  | leaf t => t.kind == .name
  | node .. => false

mutual

/-- Whether every attribute in the tree is a name. -/
def attributed : SyntaxTree → Bool
  | leaf _ => true
  | node k children => (k != .member || children.getLast?.any isNameToken) && attributedAll children

def attributedAll : List SyntaxTree → Bool
  | [] => true
  | t :: ts => t.attributed && attributedAll ts

end

theorem attributedAll_iff {ts : List SyntaxTree} : attributedAll ts = true ↔ ∀ t ∈ ts, t.attributed = true := by
  induction ts with
  | nil => simp [attributedAll]
  | cons t ts ih => simp [attributedAll, ih]

theorem attributed_node {k : Kind} {cs : List SyntaxTree} : (node k cs).attributed = true ↔
    (k = .member → cs.getLast?.any isNameToken = true) ∧ ∀ c ∈ cs, c.attributed = true := by
  rw [attributed, Bool.and_eq_true, attributedAll_iff, Bool.or_eq_true, bne_iff_ne, ← Decidable.imp_iff_not_or]

end SyntaxTree

open SyntaxTree

/-- A group whose kind depends on what it holds is no attribute. -/
theorem Shape.kind_ne_member (s : Shape) (ts : List SyntaxTree) : s.kind ts ≠ .member := by
  unfold Shape.kind
  cases s
  all_goals
    dsimp only
    repeat' split
  all_goals simp

namespace Peg

variable {σ : Type}

/-! ## Rules that read such trees -/

/-- Whether the expression reads one name. -/
def isName : Peg σ → Bool
  | tok .name => true
  | _ => false

/-- Whether the last that the expression reads is a name. -/
def endsInName : Peg σ → Bool
  | seq ps => ps.getLast?.any isName
  | _ => false

/-- Whether the attributes that an expression makes itself are names. -/
def attributes : Peg σ → Bool
  | node k _ => k != .member
  | extend _ steps => steps.all fun s => s.1 != .member || s.2.endsInName
  | _ => true

section
variable {rules : σ → Peg σ} {ts rest : List Token} {xs : List SyntaxTree}

theorem Derives.isNameToken {p : Peg σ} (h : Derives rules p ts xs rest) (hp : p.isName = true) :
    ∃ t, xs = [t] ∧ t.isNameToken = true := by
  unfold isName at hp
  split at hp
  · cases h with
    | tok haccepts => exact ⟨_, rfl, (Bool.and_eq_true_iff.mp haccepts).1⟩
  · cases hp

theorem Derives.endsInName {ps : List (Peg σ)} (h : Derives rules (.seq ps) ts xs rest)
    (hps : ps.getLast?.any isName = true) : xs.getLast?.any SyntaxTree.isNameToken = true := by
  induction ps generalizing ts xs with
  | nil => cases hps
  | cons p ps ih =>
    cases h with
    | @cons _ _ _ ys _ _ _ hread hmore =>
      cases ps with
      | nil =>
        cases hmore
        obtain ⟨t, rfl, ht⟩ := hread.isNameToken hps
        exact ht
      | cons q qs => exact any_getLast?_append ys (ih hmore hps)

end

end Peg

namespace Grammar

open Peg Nonterminal

theorem attributes_rules (s : Nonterminal) : (rules s).every attributes = true := by
  cases s <;> decide

/-- In what is read of a line every attribute is a name: only a step makes one, and it ends with a name. -/
theorem read_attributed {p : E} (hp : p.every attributes = true) {ts rest : List Token} {xs : List SyntaxTree}
    (h : read p ts = some (xs, rest)) : ∀ x ∈ xs, x.attributed = true := by
  refine (run_derives h).forall_mem attributes_rules (fun _ => rfl) (fun _ => rfl) (fun hk _ hxs => ?_)
    (fun _ _ hxs => ?_) (fun {_ _ k q _ xs _ ys _} hsteps hstep _ hread hall => ?_) hp
  · exact attributed_node.mpr ⟨fun heq => absurd heq (bne_iff_ne.mp hk), hxs⟩
  · exact attributed_node.mpr ⟨fun heq => absurd heq (Shape.kind_ne_member _ _), hxs⟩
  · refine attributed_node.mpr ⟨?_, hall⟩
    rintro rfl
    have hends : q.endsInName = true := List.all_eq_true.mp hsteps _ hstep
    unfold endsInName at hends
    split at hends
    · exact any_getLast?_append xs (hread.endsInName hends)
    · cases hends

end Grammar

end Conformance.Source
