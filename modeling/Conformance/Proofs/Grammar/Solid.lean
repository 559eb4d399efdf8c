import Conformance.Proofs.Grammar.Lines
import Conformance.Proofs.Grammar.Trees

/-!
# Trees that hold tokens

No node of a tree that was read is empty, and none starts with a comma or a semicolon (`SyntaxTree.Solid`).  So every
node has a first and a last token, also without the separators in it: an argument without its comma, a line without its
last semicolon.

That the grammar reads such trees is checked on its rules: what becomes a node has to take a token, and its first
tokens are no separators (`solid_rules`).
-/

namespace Conformance.Source

open SyntaxTree

/-- Whether the token separates arguments or small statements. -/
def Token.separates (t : Token) : Bool := t.kind == .operator && (t.text == "," || t.text == ";")

/-- The trees start with a token that separates nothing. -/
def Opened (xs : List SyntaxTree) : Prop :=
  ∃ t ts, leavesAll xs = t :: ts ∧ t.separates = false

theorem Opened.append {xs : List SyntaxTree} (h : Opened xs) (ys : List SyntaxTree) : Opened (xs ++ ys) := by
  obtain ⟨t, ts, hleaves, ht⟩ := h
  exact ⟨t, ts ++ leavesAll ys, by rw [leavesAll_append, hleaves, List.cons_append], ht⟩

/-- A tree in which every node starts with a token that separates nothing. -/
inductive SyntaxTree.Solid : SyntaxTree → Prop
  | leaf (t : Token) : Solid (.leaf t)
  | node (k : Kind) {cs : List SyntaxTree} : Opened cs → (∀ c ∈ cs, Solid c) → Solid (.node k cs)

theorem mem_leavesAll {t : Token} {x : SyntaxTree} {xs : List SyntaxTree} (hx : x ∈ xs) (ht : t ∈ x.leaves) :
    t ∈ leavesAll xs := by
  induction xs with
  | nil => cases hx
  | cons y ys ih =>
    rw [leavesAll, List.mem_append]
    rcases List.mem_cons.mp hx with rfl | hx
    · exact .inl ht
    · exact .inr (ih hx)

theorem leavesAll_subset {xs ys : List SyntaxTree} (h : xs ⊆ ys) : leavesAll xs ⊆ leavesAll ys := by
  induction xs with
  | nil => exact List.nil_subset _
  | cons x xs ih =>
    obtain ⟨hx, hxs⟩ := List.cons_subset.mp h
    rw [leavesAll]
    exact List.append_subset.mpr ⟨fun t ht => mem_leavesAll hx ht, ih hxs⟩

namespace SyntaxTree.Solid

theorem child {k : Kind} {cs : List SyntaxTree} (h : (SyntaxTree.node k cs).Solid) {c : SyntaxTree} (hc : c ∈ cs) :
    c.Solid := by
  cases h with
  | node _ _ hcs => exact hcs c hc

theorem leaves_ne_nil {t : SyntaxTree} (h : t.Solid) : t.leaves ≠ [] := by
  cases h with
  | leaf t => exact List.cons_ne_nil t []
  | node k hopened _ =>
    obtain ⟨u, us, hleaves, -⟩ := hopened
    rw [leaves, hleaves]
    exact List.cons_ne_nil u us

/-- The first child of a node is no separator. -/
theorem exists_item {k : Kind} {cs : List SyntaxTree} (h : (SyntaxTree.node k cs).Solid) {s : String}
    (hs : s = "," ∨ s = ";") : ∃ c rest, cs.filter (fun c => !c.isOperator s) = c :: rest := by
  cases h with
  | node _ hopened hcs =>
    obtain ⟨t, ts, hleaves, ht⟩ := hopened
    cases cs with
    | nil => cases hleaves
    | cons c cs =>
      have hc : c.isOperator s = false := by
        cases c with
        | node k ds => rfl
        | leaf u =>
          obtain ⟨rfl, -⟩ := List.cons.inj hleaves
          rw [Bool.eq_false_iff]
          intro hop
          obtain ⟨hkind, htext⟩ := Bool.and_eq_true_iff.mp hop
          rw [Token.separates, hkind] at ht
          rcases hs with rfl | rfl
          · simp [htext] at ht
          · simp [htext] at ht
      refine ⟨c, cs.filter fun c => !c.isOperator s, ?_⟩
      rw [List.filter_cons_of_pos (by rw [hc]; rfl)]

/-- A line of small statements has a last token besides semicolons. -/
theorem exists_lastOfLine {k : Kind} {cs : List SyntaxTree} (h : (SyntaxTree.node k cs).Solid) :
    ∃ t ∈ leavesAll cs, (SyntaxTree.node k cs).lastOfLine? = some t := by
  obtain ⟨c, rest, hitems⟩ := h.exists_item (.inr rfl)
  have hsmall : (SyntaxTree.node k cs).smallStatements = c :: rest := hitems
  obtain ⟨y, hy⟩ : ∃ y, (c :: rest).getLast? = some y := ⟨_, List.getLast?_eq_some_getLast (List.cons_ne_nil c rest)⟩
  have hmem : y ∈ cs := by
    have hfiltered := List.mem_of_getLast? hy
    rw [← hitems] at hfiltered
    exact (List.mem_filter.mp hfiltered).1
  obtain ⟨t, ht⟩ : ∃ t, y.leaves.getLast? = some t := ⟨_, List.getLast?_eq_some_getLast (h.child hmem).leaves_ne_nil⟩
  refine ⟨t, mem_leavesAll hmem (List.mem_of_getLast? ht), ?_⟩
  rw [lastOfLine?, hsmall, hy]
  exact ht

/-- An argument has tokens besides its comma. -/
theorem argument_ne_nil {a : SyntaxTree} (h : a.Solid) (ha : a.argument?.isSome = true) :
    leavesAll (a.children.filter fun c => !c.isOperator ",") ≠ [] := by
  cases a with
  | leaf t => cases ha
  | node k cs =>
    obtain ⟨c, rest, hitems⟩ := h.exists_item (.inl rfl)
    have hc : c ∈ cs := (List.mem_filter.mp (by rw [hitems]; exact List.mem_cons_self)).1
    rw [children, hitems, leavesAll]
    exact List.append_ne_nil_of_left_ne_nil (h.child hc).leaves_ne_nil _

end SyntaxTree.Solid

namespace Peg

variable {σ : Type}

/-! ## Rules that read such trees -/

section
variable (takes : σ → Bool) (table : σ → List Match)

/-- Whether what the expression reads starts with a token that separates nothing. -/
def opens (p : Peg σ) : Bool :=
  p.consumes takes && (p.firsts takes table).all fun m => !m.takes "," && !m.takes ";"

/-- Whether the nodes that an expression makes itself start with a token that separates nothing. -/
def solid : Peg σ → Bool
  | node _ p => p.opens takes table
  | build _ p => p.opens takes table
  | extend p steps => (extend p steps).opens takes table
  | _ => true

end

section
variable {takes : σ → Bool} {table : σ → List Match}

/-- What has to take a token, and none that separates, is opened. -/
theorem Derives.opened {rules : σ → Peg σ} (htakes : ∀ s, takes s = true → (rules s).consumes takes = true)
    (htable : ∀ s, (rules s).firsts takes table ⊆ table s) {p : Peg σ} {ts rest : List Token} {xs : List SyntaxTree}
    (h : Derives rules p ts xs rest) (hp : p.opens takes table = true) : Opened xs := by
  obtain ⟨hconsumes, hfirsts⟩ := Bool.and_eq_true_iff.mp hp
  have hshorter := h.length_lt htakes hconsumes
  obtain ⟨t, more, rfl, m, hm, haccepts⟩ := h.startsWith htakes htable hshorter
  have hsplit := h.lossless
  have hplain := List.all_eq_true.mp hfirsts m hm
  cases hleaves : leavesAll xs with
  | nil =>
    rw [hleaves, List.nil_append] at hsplit
    rw [hsplit] at hshorter
    exact absurd hshorter (Nat.lt_irrefl _)
  | cons u us =>
    rw [hleaves, List.cons_append] at hsplit
    obtain ⟨rfl, -⟩ := List.cons.inj hsplit
    refine ⟨u, us, hleaves, ?_⟩
    rw [Bool.eq_false_iff]
    intro hseparates
    rw [Token.separates, Bool.and_eq_true, Bool.or_eq_true, beq_iff_eq, beq_iff_eq, beq_iff_eq] at hseparates
    obtain ⟨hkind, htext | htext⟩ := hseparates
    · rw [Match.accepts_eq_takes hkind htext] at haccepts
      simp [haccepts] at hplain
    · rw [Match.accepts_eq_takes hkind htext] at haccepts
      simp [haccepts] at hplain

end

end Peg

namespace Grammar

open Peg Nonterminal

theorem solid_rules (s : Nonterminal) : (rules s).every (solid takes firstOf) = true := by
  cases s <;> decide

/-- What is read of a line is solid. -/
theorem read_solid {p : E} (hp : p.every (solid takes firstOf) = true) {ts rest : List Token} {xs : List SyntaxTree}
    (h : read p ts = some (xs, rest)) : ∀ x ∈ xs, x.Solid := by
  refine (run_derives h).forall_mem solid_rules (fun _ => rfl) .leaf (fun hopens hread hxs => ?_)
    (fun hopens hread hxs => ?_) (fun {_ _ _ _ _ xs _ ys _} hopens _ hfront _ hall => ?_) hp
  · exact .node _ (hread.opened consumes_rules firsts_rules hopens) hxs
  · exact .node _ (hread.opened consumes_rules firsts_rules hopens) hxs
  · exact .node _ ((hfront.opened consumes_rules firsts_rules hopens).append ys) hall

end Grammar

end Conformance.Source
