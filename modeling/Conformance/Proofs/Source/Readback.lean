import Conformance.Proofs.Source.Parsed

/-!
# Lines that are read back

White space does not matter to whether a line is read as its trees (`Readable.respaced`), so a line that is moved or
generated is judged by its spelling.  What generated code is made of is read back (`Made`), and statements that no clause
goes on with can be put after each other (`Statement.Stands`).
-/

namespace Conformance.Source

open SyntaxTree Grammar

/-! ## Trees and their tokens -/

mutual

/-- A tree is told by its spelling and its tokens. -/
theorem eq_of_spelling {x y : SyntaxTree} (h : x.spelling = y.spelling) (hleaves : x.leaves = y.leaves) : x = y := by
  cases x with
  | leaf t =>
    cases y with
    | leaf u => exact congrArg leaf (List.cons.inj hleaves).1
    | node k ys => cases h
  | node k xs =>
    cases y with
    | leaf u => cases h
    | node k' ys =>
      obtain ⟨rfl, hchildren⟩ := SyntaxTree.node.inj h
      exact congrArg (node k) (eq_of_spellings hchildren hleaves)

theorem eq_of_spellings {xs ys : List SyntaxTree} (h : spellings xs = spellings ys)
    (hleaves : leavesAll xs = leavesAll ys) : xs = ys := by
  cases xs with
  | nil =>
    cases ys with
    | nil => rfl
    | cons y ys => cases h
  | cons x xs =>
    cases ys with
    | nil => cases h
    | cons y ys =>
      obtain ⟨hfirst, hrest⟩ := List.cons.inj h
      have hlength : x.leaves.length = y.leaves.length := by
        simpa [leaves_spelling] using congrArg (fun t => t.leaves.length) hfirst
      obtain ⟨hx, hxs⟩ := List.append_inj hleaves hlength
      rw [eq_of_spelling hfirst hx, eq_of_spellings hrest hxs]

end

/-- Trees are read back if they are without their white space. -/
theorem Readable.of_spellings {cases : Bool} {xs : List SyntaxTree} (hproper : ∀ t ∈ leavesAll (spellings xs), t.Proper)
    (h : read (.sym (lineSymbol cases)) (leavesAll (spellings xs)) = some (spellings xs, [])) : Readable cases xs := by
  rw [leavesAll_spellings] at hproper h
  refine ⟨fun t ht => hproper t.spelling (List.mem_map_of_mem ht), readLine?_eq_some.mpr ?_⟩
  rw [read_spelling] at h
  cases hread : read (.sym (lineSymbol cases)) (leavesAll xs) with
  | none =>
    rw [hread] at h
    cases h
  | some r =>
    obtain ⟨ys, rest⟩ := r
    rw [hread] at h
    obtain ⟨hys, hrest⟩ := Prod.mk.inj (Option.some.inj h)
    obtain rfl : rest = [] := List.map_eq_nil_iff.mp hrest
    rw [eq_of_spellings ((spellings_eq_map ys).trans hys) ((List.append_nil _).symm.trans (Peg.run_lossless hread))]

/-- White space does not matter to whether trees are read back. -/
theorem Readable.respaced {cases : Bool} {xs ys : List SyntaxTree} (h : Readable cases xs)
    (hsame : spellings xs = spellings ys) : Readable cases ys := by
  have hread := read_spelling (.sym (lineSymbol cases)) (leavesAll xs)
  rw [h.read_eq, ← leavesAll_spellings] at hread
  refine .of_spellings ?_ ?_
  · rw [← hsame, leavesAll_spellings]
    exact List.forall_mem_map.mpr h.proper
  · rw [← hsame, hread, spellings_eq_map]
    rfl

/-! ## Generated expressions -/

theorem Grammar.Positionals.proper {as : List SyntaxTree} (h : Positionals as) : ∀ t ∈ leavesAll as, t.Proper := by
  induction h with
  | nil => simp [leavesAll]
  | last he => simpa [leavesAll, leaves] using he.proper
  | cons he hkind _ _ ih =>
    intro t ht
    simp only [leavesAll, leaves, List.append_nil, List.mem_append, List.mem_singleton] at ht
    rcases ht with (ht | rfl) | ht
    · exact he.proper t ht
    · exact Token.proper_of_operator hkind
    · exact ih t (by simpa [leavesAll] using ht)

/-- An expression that generated code is made of, and that can be called. -/
structure Made (e : SyntaxTree) : Prop where
  grows : Grows e.spelling
  proper : ∀ t ∈ e.spelling.leaves, t.Proper

theorem Made.fits {e : SyntaxTree} (h : Made e) : Fits e.spelling := by
  refine h.grows.fits h.proper fun hnil => ?_
  have hread := h.grows []
  rw [hnil, List.append_nil, read_eq_none rfl (not_startsWith_nil _)] at hread
  cases hread

/-- Whether the text is a name that generated code may use. -/
def isUsable (s : String) : Bool := Match.name.accepts { kind := .name, text := s } && !punctuation.contains s

theorem Made.name {s : String} (hs : isUsable s = true) : Made (.ofName s) := by
  obtain ⟨hname, hpunctuation⟩ := Bool.and_eq_true_iff.mp hs
  have hproper : s ∉ punctuation := by simpa using hpunctuation
  exact ⟨Grows.name hname, List.forall_mem_singleton.mpr fun _ => hproper⟩

theorem Made.dot {e : SyntaxTree} {s : String} (he : TakesDot e.spelling) (hproper : ∀ t ∈ e.spelling.leaves, t.Proper)
    (hs : isUsable s = true) : Made (e.dot s) := by
  obtain ⟨hname, hpunctuation⟩ := Bool.and_eq_true_iff.mp hs
  have hmember : s ∉ punctuation := by simpa using hpunctuation
  refine ⟨Grows.dot he hname, fun t ht => ?_⟩
  simp only [SyntaxTree.dot, spelling_node, List.map_cons, List.map_nil, spelling_bare, leaves, leavesAll, List.append_nil,
    List.mem_append] at ht
  rcases ht with ht | ht | ht
  · exact hproper t ht
  · cases List.mem_singleton.mp ht
    exact Token.proper_of_operator rfl
  · cases List.mem_singleton.mp ht
    exact fun _ => hmember

theorem Made.apply {f : SyntaxTree} {es : List SyntaxTree} (hf : Made f) (hes : ∀ e ∈ es, Fits e.spelling) :
    Made (f.apply es) := by
  refine ⟨hf.grows.apply hes, fun t ht => ?_⟩
  have hargs := (positionals_ofArguments hes).proper
  simp only [SyntaxTree.apply, spelling_node, leaves, List.map_append, List.map_cons, List.map_nil, spelling_bare,
    leavesAll_append, leavesAll, List.append_nil, List.mem_append] at ht
  rcases ht with ((ht | ht) | ht) | ht
  · exact hf.proper t ht
  · cases List.mem_singleton.mp ht
    exact Token.proper_of_operator rfl
  · exact hargs t ht
  · cases List.mem_singleton.mp ht
    exact Token.proper_of_operator rfl

/-- A statement that is read back and that no clause goes on with. -/
structure Statement.Stands (st : Statement) : Prop where
  meets : st.Meets parsedForm false
  next : Awaiting.nothing.next st.kind = some .nothing

/-- A call of something generated is a line. -/
theorem Made.stands_call {f : SyntaxTree} {es : List SyntaxTree} (hf : Made f) (hes : ∀ e ∈ es, Fits e.spelling) :
    (Statement.ofExpression (f.apply es)).Stands := by
  have h := hf.apply hes
  have hleaves : leavesAll (spellings [.node .simple [.node .expression [f.apply es]]]) =
      (f.apply es).spelling.leaves := by simp [spellings_eq_map, leaves, leavesAll]
  refine ⟨⟨by simp, rfl, .of_spellings (hleaves ▸ h.proper) ?_, trivial⟩, rfl⟩
  rw [hleaves]
  exact (h.grows.read_line (is_spelling _ _) h.proper).trans (by simp [spellings_eq_map])

/-! ## Statements one after the other -/

theorem follows_append {a : Awaiting} {ss ts : List Statement} (hss : follows a ss = true)
    (hts : follows .nothing ts = true) : follows a (ss ++ ts) = true := by
  induction ss generalizing a with
  | nil => exact follows_of_nothing (by simpa [follows] using hss) hts
  | cons s ss ih =>
    obtain ⟨next, hnext, hmore⟩ := follows_cons.mp hss
    exact follows_cons.mpr ⟨next, hnext, ih hmore⟩

theorem follows_of_stands {ss : List Statement} (h : ∀ s ∈ ss, s.Stands) : follows .nothing ss = true := by
  induction ss with
  | nil => rfl
  | cons s ss ih =>
    obtain ⟨hs, hss⟩ := List.forall_mem_cons.mp h
    exact follows_cons.mpr ⟨.nothing, hs.next, ih hss⟩

/-- Where a definition may stand, nothing has to be continued, before it or after it. -/
theorem Awaiting.next_definition {a next : Awaiting} {k : Kind} (hk : k ∈ [Kind.classHead, .functionHead])
    (h : a.next k = some next) : a ≠ .handler ∧ next = .nothing := by
  simp only [List.mem_cons, List.not_mem_nil, or_false] at hk
  rcases hk with rfl | rfl <;> cases a <;> cases h <;> exact ⟨by decide, rfl⟩

/-- Functions can be taken out. -/
theorem follows_filter {p : Statement → Bool} (hp : ∀ s, p s = false → s.kind = .functionHead) {a : Awaiting}
    {ss : List Statement} (h : follows a ss = true) : follows a (ss.filter p) = true := by
  induction ss generalizing a with
  | nil => exact h
  | cons s ss ih =>
    obtain ⟨next, hnext, hmore⟩ := follows_cons.mp h
    cases hs : p s with
    | true =>
      rw [List.filter_cons, if_pos hs]
      exact follows_cons.mpr ⟨next, hnext, ih hmore⟩
    | false =>
      rw [List.filter_cons, if_neg (by simp [hs])]
      obtain ⟨ha, rfl⟩ := Awaiting.next_definition (by simp [hp s hs]) hnext
      exact follows_of_nothing ha (ih hmore)

end Conformance.Source
