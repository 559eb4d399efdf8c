import Mathlib
import Conformance.Proofs.Console.Inert

/-!
# Text between tags

Text that is put between the tags of a style without being escaped (`tagged`).  It shows itself exactly if it is inert
and does not end in a backslash: backslashes at its end are read as those of the closing tag
(`shownTagged_eq_iff`).  In a message with two such texts neither makes up for what the other one loses
(`shownWith_two_tagged_iff`).
-/

namespace Conformance.Markup

variable {pictures : Pictures} {style cs rest lead sep : List Char}

/-- Text between the tags of a style. -/
def tagged (style cs : List Char) : List Char :=
  '[' :: style ++ ']' :: cs ++ '[' :: '/' :: style ++ [']']

/-! ## Reading -/

/-- Such text is read as its opening tag, its pieces, and the closing tag, which has the backslashes at the end of the
text before it. -/
theorem pieces_tagged (hstyle : TagText style) (cs rest : List Char) :
    pieces (tagged style cs ++ rest) =
      .tag 0 style :: (pieces (trunk cs) ++ .tag (endSlashes cs) ('/' :: style) :: pieces rest) := by
  generalize hslashes : endSlashes cs = k
  have hopen : tagAt? (tagged style cs ++ rest) = some (0, style, cs ++ '[' :: '/' :: (style ++ ']' :: rest)) :=
    tagAt?_eq_some_iff.mpr ⟨hstyle, by simp [tagged]⟩
  have hclose : tagAt? (List.replicate k '\\' ++ '[' :: '/' :: (style ++ ']' :: rest)) = some (k, '/' :: style, rest) :=
    tagAt?_eq_some_iff.mpr ⟨hstyle.closing, rfl⟩
  have hinside : pieces (trunk cs ++ (List.replicate k '\\' ++ '[' :: '/' :: (style ++ ']' :: rest))) =
      pieces (trunk cs) ++ .tag k ('/' :: style) :: pieces rest := by
    have hwritten := pieces_written_append (s := id) (fun cs h =>
      not_opensTag_written_bracket h k ('/' :: (style ++ ']' :: rest))) (getLast?_trunk cs)
    rwa [written_id, Piece.slashed_id, List.map_id, pieces_of_tag hclose] at hwritten
  rw [pieces_of_tag hopen, ← hinside, ← List.append_assoc, ← hslashes, trunk_append_slashes]

/-- Text without brackets and backslashes is read by itself. -/
theorem pieces_lead (h : ∀ c ∈ lead, c ≠ '[' ∧ c ≠ ']' ∧ c ≠ '\\') (rest : List Char) :
    pieces (lead ++ rest) = pieces lead ++ pieces rest := by
  induction lead with
  | nil => simp [pieces]
  | cons c lead ih =>
    obtain ⟨⟨hbracket, -, hslash⟩, hlead⟩ := List.forall_mem_cons.mp h
    have hnone (cs : List Char) : tagAt? (c :: cs) = none :=
      (tagAt?_run_eq_none_iff (n := 0) hslash).mpr fun hc => absurd hc hbracket
    rw [List.cons_append, pieces_of_none (hnone _), pieces_of_none (hnone _), ih hlead, List.cons_append]

theorem chunks_lead (h : Bland lead) (hstyle : TagText style) (cs rest : List Char) :
    chunks (pieces (lead ++ (tagged style cs ++ rest))) =
      chunks (pieces lead) ++ chunks (pieces (tagged style cs ++ rest)) := by
  rw [pieces_lead h.plain, pieces_tagged hstyle, chunks_append_tag]
  rfl

/-! ## Backslashes at the end -/

theorem endSlashes_eq_zero_iff (cs : List Char) : endSlashes cs = 0 ↔ cs.getLast? ≠ some '\\' := by
  constructor
  · intro h
    have htrunk := trunk_append_slashes cs
    rw [h, List.replicate_zero, List.append_nil] at htrunk
    rw [← htrunk]
    exact getLast?_trunk cs
  · intro h
    by_contra hne
    obtain ⟨k, hk⟩ := Nat.exists_eq_succ_of_ne_zero hne
    refine h ?_
    rw [← trunk_append_slashes cs, hk, List.replicate_succ']
    simp

theorem trunk_eq_self (h : cs.getLast? ≠ some '\\') : trunk cs = cs := by
  have htrunk := trunk_append_slashes cs
  rwa [(endSlashes_eq_zero_iff cs).mpr h, List.replicate_zero, List.append_nil] at htrunk

theorem length_trunk (cs : List Char) : (trunk cs).length + endSlashes cs = cs.length := by
  conv_rhs => rw [← trunk_append_slashes cs]
  simp

/-! ## Showing -/

/-- What text shows between the tags of a style, if it can be shown. -/
def shownTagged (pictures : Pictures) (style cs : List Char) : List Char :=
  displayed pictures (trunk cs) ++ (Chunk.tag (endSlashes cs) ('/' :: style)).display pictures

theorem displayed_tagged (hstyle : TagText style) (cs rest : List Char) :
    displayed pictures (tagged style cs ++ rest) = shownTagged pictures style cs ++ displayed pictures rest := by
  rw [displayed, pieces_tagged hstyle, chunks, chunks_append_tag]
  simp [Chunk.display, shownTagged, displayed]

theorem displayed_lead (hbook : Book pictures) (h : Bland lead) (hstyle : TagText style) (cs rest : List Char) :
    displayed pictures (lead ++ (tagged style cs ++ rest)) =
      lead ++ (shownTagged pictures style cs ++ displayed pictures rest) := by
  have hlead : (chunks (pieces lead)).flatMap (Chunk.display pictures) = lead :=
    (displayed_eq_iff hbook lead).mpr h.inert
  rw [← displayed_tagged hstyle, displayed, chunks_lead h hstyle, List.flatMap_append, hlead, displayed]

theorem shownTagged_even (h : endSlashes cs % 2 = 0) :
    shownTagged pictures style cs = displayed pictures (trunk cs) ++ List.replicate (endSlashes cs / 2) '\\' := by
  rw [shownTagged, Chunk.display, if_neg (by omega), List.append_nil]

theorem shownTagged_odd (hstyle : IsStyle style) (h : endSlashes cs % 2 = 1) :
    shownTagged pictures style cs =
      displayed pictures (trunk cs) ++ List.replicate (endSlashes cs / 2) '\\' ++ ('[' :: '/' :: style ++ [']']) := by
  rw [shownTagged, Chunk.display, if_pos h, List.append_assoc]
  exact congrArg _ (congrArg _ (hstyle.shown pictures))

theorem length_shownTagged_le (hbook : Book pictures) (h : endSlashes cs % 2 = 0) :
    (shownTagged pictures style cs).length ≤ cs.length := by
  have hle := length_displayed_le hbook (trunk cs)
  have hlength := length_trunk cs
  rw [shownTagged_even h, List.length_append, List.length_replicate]
  omega

theorem getLast?_of_odd (h : endSlashes cs % 2 = 1) : cs.getLast? = some '\\' := by
  by_contra hlast
  rw [(endSlashes_eq_zero_iff cs).mpr hlast] at h
  cases h

theorem getLast?_shownTagged (hstyle : IsStyle style) (h : endSlashes cs % 2 = 1) :
    (shownTagged pictures style cs).getLast? = some ']' := by
  rw [shownTagged_odd hstyle h]
  simp [List.getLast?_append, List.getLast?_cons]

theorem shownTagged_eq_iff (hbook : Book pictures) (hstyle : IsStyle style) (cs : List Char) :
    shownTagged pictures style cs = cs ↔ Inert pictures cs ∧ cs.getLast? ≠ some '\\' := by
  constructor
  · intro h
    rcases Nat.mod_two_eq_zero_or_one (endSlashes cs) with heven | hodd
    · -- half of the backslashes at the end are lost, so there are none
      have hzero : endSlashes cs = 0 := by
        have hle := length_displayed_le hbook (trunk cs)
        have hlength := length_trunk cs
        have hshown := congrArg List.length h
        rw [shownTagged_even heven, List.length_append, List.length_replicate] at hshown
        omega
      have hlast := (endSlashes_eq_zero_iff cs).mp hzero
      rw [shownTagged_even heven, hzero, trunk_eq_self hlast, Nat.zero_div, List.replicate_zero, List.append_nil] at h
      exact ⟨(displayed_eq_iff hbook cs).mp h, hlast⟩
    · have hlast : (shownTagged pictures style cs).getLast? = some ']' := getLast?_shownTagged hstyle hodd
      rw [h, getLast?_of_odd hodd] at hlast
      exact absurd hlast (by decide)
  · rintro ⟨hinert, hlast⟩
    have hzero := (endSlashes_eq_zero_iff cs).mpr hlast
    rw [shownTagged_even (by rw [hzero]), hzero, trunk_eq_self hlast, (displayed_eq_iff hbook cs).mpr hinert,
      Nat.zero_div, List.replicate_zero, List.append_nil]

/-- Of two texts each shows itself if they do together: what the closing tag of one adds, the other cannot take away
again. -/
theorem shownTagged_pair (hbook : Book pictures) (hstyle : IsStyle style) (hslash : '\\' ∉ style) {as bs : List Char}
    (h : shownTagged pictures style as ++ (sep ++ shownTagged pictures style bs) = as ++ (sep ++ bs)) :
    shownTagged pictures style as = as ∧ shownTagged pictures style bs = bs := by
  have hbs : (shownTagged pictures style bs).length ≤ bs.length := by
    rcases Nat.mod_two_eq_zero_or_one (endSlashes bs) with heven | hodd
    · exact length_shownTagged_le hbook heven
    · have hlast := congrArg List.getLast? h
      simp [List.getLast?_append, getLast?_shownTagged hstyle hodd, getLast?_of_odd hodd] at hlast
  have hlength := congrArg List.length h
  rcases Nat.mod_two_eq_zero_or_one (endSlashes as) with heven | hodd
  · have has : (shownTagged pictures style as).length ≤ as.length := length_shownTagged_le hbook heven
    simp only [List.length_append] at hlength
    obtain ⟨hfirst, hrest⟩ := List.append_inj h (by omega)
    exact ⟨hfirst, List.append_cancel_left hrest⟩
  · -- the closing tag is shown where a text goes on that ends in a backslash, and it has none
    exfalso
    have htrunk := length_trunk as
    have hdisplayed := length_displayed_le hbook (trunk as)
    generalize hshown : displayed pictures (trunk as) ++ List.replicate (endSlashes as / 2) '\\' = shown
    have hshort : shown.length < as.length := by
      rw [← hshown, List.length_append, List.length_replicate]
      omega
    rw [shownTagged_odd hstyle hodd, hshown, List.append_assoc] at h
    rw [shownTagged_odd hstyle hodd, hshown] at hlength
    obtain ⟨more, has⟩ : shown <+: as :=
      List.prefix_of_prefix_length_le (List.prefix_append _ _) (by rw [h]; exact List.prefix_append _ _) hshort.le
    have hmore : more.getLast? = some '\\' := by
      have hne : more ≠ [] := by
        rintro rfl
        simp [← has] at hshort
      rw [← getLast?_of_odd hodd, ← has, List.getLast?_append_of_ne_nil _ hne]
    rw [← has, List.append_assoc shown more, List.append_cancel_left_eq] at h
    have hclosing : more <+: '[' :: '/' :: style ++ [']'] := by
      have hleft : more <+: more ++ (sep ++ bs) := List.prefix_append _ _
      refine List.prefix_of_prefix_length_le hleft ?_ ?_
      · rw [← h]
        exact List.prefix_append _ _
      · rw [← has] at hlength
        simp only [List.length_append] at hlength ⊢
        omega
    have hmem := hclosing.subset (List.mem_of_getLast? hmore)
    simp [hslash] at hmem

/-- Text shows itself between the tags of a style, before whatever follows. -/
theorem shownChunks_tagged (hbook : Book pictures) (hstyle : IsStyle style) (h : Inert pictures cs)
    (hlast : cs.getLast? ≠ some '\\') (rest : List Char) (position : Nat) (stack : List String) :
    ∃ position', shownChunks pictures position stack (chunks (pieces (tagged style cs ++ rest))) =
      (shownChunks pictures position' stack (chunks (pieces rest))).map (cs ++ ·) := by
  obtain ⟨name, hname⟩ := hstyle.opens
  refine ⟨position + 0 + style.length + 2 + cs.length + 0 + ('/' :: style).length + 2, ?_⟩
  rw [pieces_tagged hstyle.tagText, trunk_eq_self hlast, (endSlashes_eq_zero_iff cs).mpr hlast, chunks,
    chunks_append_tag, shownChunks_even rfl (hname _ stack).1, h.shownChunks_append hbook,
    shownChunks_even rfl (hname _ stack).2]
  cases shownChunks pictures _ stack (chunks (pieces rest)) <;> simp [Except.map]

/-- A message with two texts in a style shows them both as they are exactly if each of them is inert and does not end in
a backslash. -/
theorem shownWith_two_tagged_iff (hbook : Book pictures) (hstyle : IsStyle style) (hslash : '\\' ∉ style)
    (hlead : Bland lead) (hsep : Bland sep) (message shown : String) {as bs : List Char}
    (hmessage : message.toList = lead ++ (tagged style as ++ (sep ++ tagged style bs)))
    (hshown : shown.toList = lead ++ (as ++ (sep ++ bs))) :
    shownWith pictures message = .ok shown ↔
      (Inert pictures as ∧ as.getLast? ≠ some '\\') ∧ Inert pictures bs ∧ bs.getLast? ≠ some '\\' := by
  have hsecond : tagged style bs = tagged style bs ++ [] := (List.append_nil _).symm
  constructor
  · intro h
    obtain ⟨cs, hcs, rfl⟩ := Computation.except_map_eq_ok h
    have hdisplayed := flatMap_display_of_shownChunks hcs
    rw [String.toList_ofList] at hshown
    rw [hmessage, ← displayed, displayed_lead hbook hlead hstyle.tagText, hsecond,
      displayed_lead hbook hsep hstyle.tagText, hshown, List.append_cancel_left_eq] at hdisplayed
    have hempty : displayed pictures [] = [] := (displayed_eq_iff hbook []).mpr inert_nil
    rw [hempty, List.append_nil] at hdisplayed
    obtain ⟨has, hbs⟩ := shownTagged_pair hbook hstyle hslash hdisplayed
    exact ⟨(shownTagged_eq_iff hbook hstyle as).mp has, (shownTagged_eq_iff hbook hstyle bs).mp hbs⟩
  · rintro ⟨⟨has, haslast⟩, hbs, hbslast⟩
    obtain ⟨p, hp⟩ := shownChunks_tagged hbook hstyle has haslast (sep ++ (tagged style bs ++ [])) (0 + lead.length) []
    obtain ⟨p', hp'⟩ := shownChunks_tagged hbook hstyle hbs hbslast [] (p + sep.length) []
    rw [shownWith, hmessage, hsecond, chunks_lead hlead hstyle.tagText, hlead.inert.shownChunks_append hbook, hp,
      chunks_lead hsep hstyle.tagText, hsep.inert.shownChunks_append hbook, hp']
    simp [pieces, chunks, shownChunks, Except.map, ← String.toList_inj, hshown]

end Conformance.Markup
