import Mathlib
import Conformance.Files.Path
import Conformance.Proofs.Console.Verbatim

/-!
# Paths and their texts

The components of a path that is read are names: no slash is in them, and none is empty or `.` (`proper_ofText`).
Different paths of such components have different texts (`text_injOn`).
-/

namespace Conformance.Path

/-- Every component is a name. -/
def Proper (p : Path) : Prop := ∀ part ∈ p.parts, part ≠ "" ∧ part ≠ "." ∧ '/' ∉ part.toList

/-! ## Reading -/

theorem notMem_of_mem_splitOn {c : Char} {cs piece : List Char} (h : piece ∈ cs.splitOn c) : c ∉ piece := by
  induction cs generalizing piece with
  | nil =>
    obtain rfl : piece = [] := by simpa using h
    simp
  | cons x cs ih =>
    rw [List.splitOn_cons_eq_if_modifyHead] at h
    split at h
    · rcases List.mem_cons.mp h with rfl | h
      · simp
      · exact ih h
    · next hx =>
      obtain ⟨first, rest, hsplit⟩ := List.exists_cons_of_ne_nil (List.splitOn_ne_nil c cs)
      rw [hsplit, List.modifyHead_cons] at h
      rcases List.mem_cons.mp h with rfl | h
      · have hfirst : c ∉ first := ih (by rw [hsplit]; exact List.mem_cons_self)
        have hne : c ≠ x := fun hc => hx (by rw [hc]; exact beq_self_eq_true x)
        simp [hne, hfirst]
      · exact ih (by rw [hsplit]; exact List.mem_cons_of_mem _ h)

theorem proper_ofText (s : String) : (ofText s).Proper := by
  intro part hpart
  obtain ⟨hmem, hname⟩ := List.mem_filter.mp hpart
  obtain ⟨piece, hpiece, rfl⟩ := List.mem_map.mp hmem
  refine ⟨?_, ?_, by simpa using notMem_of_mem_splitOn hpiece⟩ <;> simp_all

/-! ## Texts -/

/-- The components of a path between slashes. -/
def joined (parts : List String) : List Char := ['/'].intercalate (parts.map String.toList)

theorem toList_text (p : Path) : p.text.toList =
    if p.anchor = .here ∧ p.parts = [] then ['.'] else p.anchor.text.toList ++ joined p.parts := by
  unfold text absolute
  by_cases h : p.anchor = .here ∧ p.parts = []
  · simp [h.1, h.2]
  · rw [if_neg h, if_neg (by simpa using h), String.toList_append, String.toList_intercalate]
    rfl

section

variable {p q : Path}

theorem Proper.head?_joined (hp : p.Proper) : (joined p.parts).head? ≠ some '/' := by
  unfold joined
  cases hparts : p.parts with
  | nil => simp
  | cons first rest =>
    obtain ⟨hne, -, hslash⟩ := hp first (by rw [hparts]; exact List.mem_cons_self)
    obtain ⟨c, cs, hc⟩ := List.exists_cons_of_ne_nil (fun h => hne (String.toList_eq_nil_iff.mp h))
    rw [List.map_cons, Diagnostic.intercalate_cons, hc]
    rw [hc] at hslash
    simpa [eq_comm] using fun h : '/' = c => hslash (by rw [h]; exact List.mem_cons_self)

theorem Proper.joined_eq_nil (hp : p.Proper) (h : joined p.parts = []) : p.parts = [] := by
  cases hparts : p.parts with
  | nil => rfl
  | cons first rest =>
    rw [joined, hparts, List.map_cons, Diagnostic.intercalate_cons, List.append_eq_nil_iff] at h
    exact absurd (String.toList_eq_nil_iff.mp h.1) (hp first (by rw [hparts]; exact List.mem_cons_self)).1

theorem Proper.parts_eq (hp : p.Proper) (hq : q.Proper) (h : joined p.parts = joined q.parts) : p.parts = q.parts := by
  by_cases hnil : p.parts = []
  · rw [hnil] at h ⊢
    exact (hq.joined_eq_nil h.symm).symm
  · have hnil' : q.parts ≠ [] := fun hempty => hnil (hp.joined_eq_nil (by rw [h, hempty]; rfl))
    have hnames {p : Path} (hp : p.Proper) : ∀ name ∈ p.parts.map String.toList, '/' ∉ name := by
      simpa using fun name hname => (hp name hname).2.2
    have hlists := (Diagnostic.intercalate_inj (hnames hp) (hnames hq) (by simpa) (by simpa)).mp h
    exact List.map_injective_iff.mpr (fun _ _ => String.toList_inj.mp) hlists

theorem Proper.joined_ne_dot (hp : p.Proper) : joined p.parts ≠ ['.'] := by
  intro h
  cases hparts : p.parts with
  | nil => simp [joined, hparts] at h
  | cons first rest =>
    obtain ⟨hne, hdot, -⟩ := hp first (by rw [hparts]; exact List.mem_cons_self)
    rw [joined, hparts, List.map_cons, Diagnostic.intercalate_cons] at h
    obtain ⟨c, cs, hc⟩ := List.exists_cons_of_ne_nil (fun h => hne (String.toList_eq_nil_iff.mp h))
    simp only [hc, List.cons_append, List.cons.injEq, List.append_eq_nil_iff] at h
    exact hdot (String.toList_inj.mp (by rw [hc, h.1, h.2.1]; rfl))

/-- The slashes at the front are those of the anchor. -/
theorem Proper.takeWhile_slash (hp : p.Proper) :
    (p.anchor.text.toList ++ joined p.parts).takeWhile (· == '/') = p.anchor.text.toList := by
  have hslashes : ∀ c ∈ p.anchor.text.toList, (c == '/') = true := by cases p.anchor <;> simp [Anchor.text]
  have hhead := hp.head?_joined
  rw [List.takeWhile_append_of_pos hslashes]
  cases hjoined : joined p.parts with
  | nil => simp
  | cons c cs =>
    have hc : c ≠ '/' := by simpa [hjoined] using hhead
    simp [hc]

theorem anchor_eq_of_text {a b : Anchor} (h : a.text.toList = b.text.toList) : a = b := by
  cases a <;> cases b <;> simp [Anchor.text] at h ⊢

theorem Proper.eq_of_joined (hp : p.Proper) (hq : q.Proper)
    (h : p.anchor.text.toList ++ joined p.parts = q.anchor.text.toList ++ joined q.parts) : p = q := by
  have hanchor : p.anchor = q.anchor :=
    anchor_eq_of_text (by rw [← hp.takeWhile_slash, h, hq.takeWhile_slash])
  rw [hanchor, List.append_cancel_left_eq] at h
  have hparts := hp.parts_eq hq h
  cases p
  cases q
  simp_all

theorem Proper.text_ne_dot (hp : p.Proper) : p.anchor.text.toList ++ joined p.parts ≠ ['.'] := by
  intro h
  have hanchor := hp.takeWhile_slash
  rw [h] at hanchor
  rw [← hanchor] at h
  exact hp.joined_ne_dot h

/-- Different paths have different texts. -/
theorem text_injOn (hp : p.Proper) (hq : q.Proper) (h : p.text = q.text) : p = q := by
  have hchars := congrArg String.toList h
  rw [toList_text, toList_text] at hchars
  by_cases hdot : p.anchor = .here ∧ p.parts = [] <;> by_cases hdot' : q.anchor = .here ∧ q.parts = []
  · cases p
    cases q
    simp_all
  · rw [if_pos hdot, if_neg hdot'] at hchars
    exact absurd hchars.symm hq.text_ne_dot
  · rw [if_neg hdot, if_pos hdot'] at hchars
    exact absurd hchars hp.text_ne_dot
  · rw [if_neg hdot, if_neg hdot'] at hchars
    exact hp.eq_of_joined hq hchars

theorem eq_of_map_text {ps qs : List Path} (hps : ∀ p ∈ ps, p.Proper) (hqs : ∀ q ∈ qs, q.Proper)
    (h : ps.map text = qs.map text) : ps = qs := by
  induction ps generalizing qs with
  | nil => simpa [eq_comm] using h
  | cons p ps ih =>
    cases qs with
    | nil => simp at h
    | cons q qs =>
      obtain ⟨htext, hrest⟩ := List.cons_eq_cons.mp h
      obtain ⟨hp, hps⟩ := List.forall_mem_cons.mp hps
      obtain ⟨hq, hqs⟩ := List.forall_mem_cons.mp hqs
      rw [text_injOn hp hq htext, ih hps hqs hrest]

end

end Conformance.Path
