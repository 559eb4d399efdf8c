import Conformance.Proofs.Grammar.Inversion
import Conformance.Proofs.Source.Form
import Conformance.Proofs.Source.Rendering

/-!
# Rows and statements

The statements that the rows of a text are read as have the form of those rows (`readRows_meets`).  A line has the form
once its tokens, the lines before it and its margin do; an item has it once its head and its suite do; and putting
statements together from items keeps it.
-/

namespace Conformance.Source

open SyntaxTree Grammar

/-! ## Reading lines -/

/-- The symbol that reads a line. -/
def lineSymbol (cases : Bool) : Nonterminal := if cases then .caseLine else .line

theorem readLine?_eq_some {s : Nonterminal} {tokens : List Token} {xs : List SyntaxTree} :
    readLine? s tokens = some xs ↔ read (.sym s) tokens = some (xs, []) := by
  rw [readLine?_eq]
  cases read (.sym s) tokens with
  | none => simp
  | some r =>
    obtain ⟨ys, rest⟩ := r
    cases rest <;> simp

/-- The trees of a line hold its tokens. -/
theorem readLine?_leaves {s : Nonterminal} {tokens : List Token} {xs : List SyntaxTree}
    (h : readLine? s tokens = some xs) : leavesAll xs = tokens :=
  (List.append_nil _).symm.trans (Peg.run_lossless (readLine?_eq_some.mp h))

/-- What is read under `match` is a case. -/
theorem readLine?_caseLine {tokens : List Token} {xs : List SyntaxTree} (h : readLine? .caseLine tokens = some xs) :
    ∃ cs more, xs = .node .caseHead cs :: more := by
  have hread := readLine?_eq_some.mp h
  obtain ⟨_, _, zs, rfl, -, ⟨cs, rfl, -⟩, -⟩ := took_rule hread
  exact ⟨cs, zs, rfl⟩

/-! ## From rows to statements -/

section
variable (f : Form) (style : Style)

/-- A logical line that has the form, however it is read. -/
structure LogicalLine.Offers (l : LogicalLine) : Prop where
  line : ∀ cases xs, readLine? (lineSymbol cases) l.tokens = some xs → f.line cases xs
  lead : ∀ e ∈ l.lead, f.empty e
  stop : f.stop l.stop

mutual

/-- A row of which all lines have the form, however they are read. -/
def Row.Offers : Row → Prop
  | .plain line => line.Offers f
  | .opening line indent body footer =>
    line.Offers f ∧ f.indent (if indent = style.indent then none else some indent) ∧ body ≠ [] ∧ rowsOffer body ∧
      ∀ l ∈ footer, f.empty l

def rowsOffer : List Row → Prop
  | [] => True
  | row :: rows => row.Offers ∧ rowsOffer rows

end

/-- An item that has the form.  A definition has no decorators yet. -/
def Item.Meets (cases : Bool) : Item → Prop
  | .decorator d => cases = false ∧ (∀ l ∈ d.lead, f.empty l) ∧ f.line false [d.tree] ∧ f.stop d.stop
  | .statement k s => s.Meets f cases ∧ s.kind = k ∧ s.Undecorated

variable {f style}

/-- A head with its suite has the form, if they do. -/
theorem compound_meets {cases : Bool} {lead : List Line} {head : SyntaxTree} {body : Suite} {item : Item}
    (hcases : cases = true → head.is .caseHead = true) (hlead : ∀ l ∈ lead, f.empty l)
    (hbody : body.Meets f cases head) (h : Item.compound lead head body = some item) : item.Meets f cases := by
  have hdefinition : ∀ {k cs}, head = .node k cs → k ≠ .caseHead → cases = false := by
    rintro k cs rfl hk
    cases cases with
    | false => rfl
    | true => exact absurd (beq_iff_eq.mp (hcases rfl)).symm hk
  have hprelude : Prelude.Meets f { lead } := ⟨hlead, by simp, by simp⟩
  unfold Item.compound at h
  split at h
  · cases h
    exact ⟨⟨hdefinition rfl (by decide), hprelude, hbody⟩, rfl, rfl⟩
  · cases h
    exact ⟨⟨hdefinition rfl (by decide), hprelude, rfl, hbody⟩, rfl, rfl⟩
  · next hasync =>
    cases h
    refine ⟨⟨hdefinition rfl (by decide), hprelude, ?_, hbody⟩, rfl, rfl⟩
    unfold FunctionHead.definite
    split
    · next hrest => exact (hasync _ _ hrest).elim
    · rfl
  · cases h
  · cases h
  · next hclass _ hfunction hdecorator hsimple =>
    cases h
    refine ⟨⟨hlead, ?_, hbody⟩, rfl, trivial⟩
    unfold SyntaxTree.isClause
    split
    · next heq => exact (hclass _ _ _ (SyntaxTree.node.inj heq).1 (SyntaxTree.node.inj heq).2).elim
    · next heq => exact (hfunction _ _ _ (SyntaxTree.node.inj heq).1 (SyntaxTree.node.inj heq).2).elim
    · next heq => exact (hdecorator (SyntaxTree.node.inj heq).1).elim
    · next heq => exact (hsimple (SyntaxTree.node.inj heq).1).elim
    · rfl
    · next heq => cases heq
  · cases h

theorem Prelude.decorate_meets {cases : Bool} {ds : List Decorator} {p : Prelude}
    (hds : ∀ d ∈ ds, (Item.decorator d).Meets f cases) (hp : p.Meets f) : (p.decorate ds).Meets f := by
  cases ds with
  | nil => exact hp
  | cons first more =>
    obtain ⟨⟨-, hlead, hline, hstop⟩, hmore⟩ := List.forall_mem_cons.mp hds
    refine ⟨hlead, ?_, hp.lead⟩
    intro d hd
    rcases List.mem_cons.mp hd with rfl | hd
    · exact ⟨by simp, hline, hstop⟩
    · exact (hmore d hd).2

/-- The statements that items are put together to have the form, if the items do. -/
theorem assemble_meets {cases : Bool} {a : Awaiting} {waiting : List Decorator} {items : List Item} {ss : List Statement}
    (hwaiting : ∀ d ∈ waiting, (Item.decorator d).Meets f cases) (hitems : ∀ i ∈ items, i.Meets f cases)
    (h : assemble a waiting items = some ss) : statementsMeet f cases ss ∧ follows a ss = true := by
  induction items generalizing a waiting ss with
  | nil =>
    rw [assemble] at h
    split at h
    · cases h
    · next hopen =>
      cases h
      refine ⟨trivial, ?_⟩
      simpa [follows] using fun ha => hopen (.inl ha)
  | cons item items ih =>
    obtain ⟨hitem, hrest⟩ := List.forall_mem_cons.mp hitems
    cases item with
    | decorator d =>
      rw [assemble] at h
      split at h
      · cases h
      · next hhandler =>
        obtain ⟨hmeets, hfollows⟩ := ih (List.forall_mem_cons.mpr ⟨hitem, hwaiting⟩) hrest h
        exact ⟨hmeets, follows_of_nothing hhandler hfollows⟩
    | statement k s =>
      obtain ⟨hs, rfl, hplain⟩ := hitem
      rw [assemble] at h
      obtain ⟨next, hnext, h⟩ := Option.bind_eq_some_iff.mp h
      obtain ⟨more, hmore, h⟩ := Option.bind_eq_some_iff.mp h
      obtain ⟨hmeets, hfollows⟩ := ih (by simp) hrest hmore
      have hreversed : ∀ d ∈ waiting.reverse, (Item.decorator d).Meets f cases := fun d hd =>
        hwaiting d (List.mem_reverse.mp hd)
      split at h
      · cases h
        exact ⟨⟨hs, hmeets⟩, follows_cons.mpr ⟨next, hnext, hfollows⟩⟩
      · cases h
        obtain ⟨hcases, hprelude, hbody⟩ := hs
        exact ⟨⟨⟨hcases, Prelude.decorate_meets hreversed hprelude, hbody⟩, hmeets⟩,
          follows_cons.mpr ⟨next, hnext, hfollows⟩⟩
      · cases h
        obtain ⟨hcases, hprelude, hdefinite, hbody⟩ := hs
        exact ⟨⟨⟨hcases, Prelude.decorate_meets hreversed hprelude, hdefinite, hbody⟩, hmeets⟩,
          follows_cons.mpr ⟨next, hnext, hfollows⟩⟩
      · cases h

/-- Something is put together from items, if there are any. -/
theorem assemble_ne_nil {a : Awaiting} {waiting : List Decorator} {items : List Item} {ss : List Statement}
    (hne : waiting ≠ [] ∨ items ≠ []) (h : assemble a waiting items = some ss) : ss ≠ [] := by
  induction items generalizing a waiting with
  | nil =>
    rw [assemble] at h
    split at h
    · cases h
    · next hopen =>
      have hwaiting : waiting ≠ [] := hne.resolve_right fun hnil => hnil rfl
      exact (hopen (.inr (by simpa using hwaiting))).elim
  | cons item items ih =>
    cases item with
    | decorator d =>
      rw [assemble] at h
      split at h
      · cases h
      · exact ih (.inl (by simp)) h
    | statement k s =>
      rw [assemble] at h
      obtain ⟨next, -, h⟩ := Option.bind_eq_some_iff.mp h
      obtain ⟨more, -, h⟩ := Option.bind_eq_some_iff.mp h
      split at h <;> cases h <;> simp

theorem caseHead_of_readLine? {cases : Bool} {tokens : List Token} {head : SyntaxTree} {more : List SyntaxTree}
    (h : readLine? (lineSymbol cases) tokens = some (head :: more)) : cases = true → head.is .caseHead = true := by
  rintro rfl
  obtain ⟨cs, more, heq⟩ := readLine?_caseLine h
  cases heq
  rfl

mutual

/-- What a row is read as has its form. -/
theorem readRow_meets {cases : Bool} (row : Row) {item : Item} (hoffers : row.Offers f style)
    (h : readRow style cases row = some item) : item.Meets f cases := by
  cases row with
  | plain line =>
    rw [Row.Offers] at hoffers
    rw [readRow] at h
    obtain ⟨trees, htrees, h⟩ := Option.bind_eq_some_iff.mp h
    have htrees : readLine? (lineSymbol cases) line.tokens = some trees := htrees
    have hline := hoffers.line cases trees htrees
    split at h
    · cases h
      have hfalse : cases = false := by
        cases cases with
        | false => rfl
        | true => cases caseHead_of_readLine? htrees rfl
      exact ⟨hfalse, hoffers.lead, hfalse ▸ hline, hoffers.stop⟩
    · cases h
      exact ⟨⟨hoffers.lead, rfl, hline, hoffers.stop⟩, rfl, trivial⟩
    · refine compound_meets (caseHead_of_readLine? htrees) hoffers.lead ?_ h
      exact ⟨hline, hoffers.stop⟩
    · cases h
  | opening line indent body footer =>
    rw [Row.Offers] at hoffers
    obtain ⟨hline, hindent, hne, hbody, hfooter⟩ := hoffers
    rw [readRow] at h
    obtain ⟨trees, htrees, h⟩ := Option.bind_eq_some_iff.mp h
    have htrees : readLine? (lineSymbol cases) line.tokens = some trees := htrees
    split at h
    · obtain ⟨items, hitems, h⟩ := Option.bind_eq_some_iff.mp h
      obtain ⟨statements, hstatements, h⟩ := Option.bind_eq_some_iff.mp h
      obtain ⟨hmeets, hfollows⟩ := assemble_meets (by simp) (readRows_meets body hbody hitems) hstatements
      have hsome : items ≠ [] := by
        rintro rfl
        cases body with
        | nil => exact hne rfl
        | cons row rows =>
          rw [readRows] at hitems
          obtain ⟨item, -, hitems⟩ := Option.bind_eq_some_iff.mp hitems
          obtain ⟨more, -, hitems⟩ := Option.bind_eq_some_iff.mp hitems
          cases hitems
      refine compound_meets (caseHead_of_readLine? htrees) hline.lead ?_ h
      exact ⟨hline.line cases _ htrees, hline.stop, hindent, assemble_ne_nil (.inr hsome) hstatements, hmeets, hfollows,
        hfooter⟩
    · cases h

/-- What rows are read as has their form. -/
theorem readRows_meets {cases : Bool} (rows : List Row) {items : List Item} (hoffers : rowsOffer f style rows)
    (h : readRows style cases rows = some items) : ∀ i ∈ items, i.Meets f cases := by
  cases rows with
  | nil =>
    cases h
    simp
  | cons row rows =>
    rw [rowsOffer] at hoffers
    rw [readRows] at h
    obtain ⟨item, hitem, h⟩ := Option.bind_eq_some_iff.mp h
    obtain ⟨more, hmore, h⟩ := Option.bind_eq_some_iff.mp h
    cases h
    exact List.forall_mem_cons.mpr ⟨readRow_meets row hoffers.1 hitem, readRows_meets rows hoffers.2 hmore⟩

end

end

end Conformance.Source
