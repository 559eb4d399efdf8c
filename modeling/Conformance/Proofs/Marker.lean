import Conformance.Expansion

/-!
# Entry markers of a definition

A dotted name spells at most one marker: its final segment is the word of the marker.  So the entry markers of a
definition can be counted as decorators:

    entries aliases ds = (entryDecorators aliases ds).map fun d => (entryMarker aliases d, d)      (entries_eq)
-/

namespace Conformance

open Source

/-! ## One name, one marker -/

namespace Marker

/-- The characters after the last dot. -/
def finalSegment (name : String) : List Char :=
  (name.toList.reverse.takeWhile (· != '.')).reverse

theorem finalSegment_word (m : Marker) : finalSegment m.word = m.word.toList := by
  cases m <;> decide +kernel

theorem finalSegment_qualified (a : String) (m : Marker) :
    finalSegment (a ++ "." ++ m.word) = m.word.toList := by
  cases m <;> simp [finalSegment, word]

theorem word_injective {m m' : Marker} (h : m.word.toList = m'.word.toList) : m = m' := by
  revert h
  cases m <;> cases m' <;> decide

theorem finalSegment_of_mem_spellings {aliases : List String} {m : Marker} {name : String}
    (h : name ∈ m.spellings aliases) : finalSegment name = m.word.toList := by
  rcases List.mem_cons.mp h with rfl | h
  · exact finalSegment_word m
  · obtain ⟨a, -, rfl⟩ := List.mem_map.mp h
    exact finalSegment_qualified a m

theorem marks_iff {aliases : List String} {m : Marker} {d : Decorator} :
    m.marks aliases d = true ↔
      ∃ name, d.expression.callee.dotted? = some name ∧ name ∈ m.spellings aliases := by
  unfold marks
  cases d.expression.callee.dotted? with
  | none => simp
  | some name => simp

/-- No decorator is two markers at once. -/
theorem marks_unique {aliases : List String} {m m' : Marker} {d : Decorator}
    (h : m.marks aliases d = true) (h' : m'.marks aliases d = true) : m = m' := by
  obtain ⟨name, hd, hm⟩ := marks_iff.mp h
  obtain ⟨name', hd', hm'⟩ := marks_iff.mp h'
  obtain rfl : name = name' := by simpa [hd] using hd'
  apply word_injective
  rw [← finalSegment_of_mem_spellings hm, finalSegment_of_mem_spellings hm']

end Marker

/-! ## Entry markers -/

/-- Whether a decorator is an entry marker. -/
def isEntry (aliases : List String) (d : Decorator) : Bool :=
  entryMarkers.any fun m => m.marks aliases d

/-- The entry markers among some decorators. -/
def entryDecorators (aliases : List String) (ds : List Decorator) : List Decorator :=
  ds.filter (isEntry aliases)

/-- The marker that an entry marker is. -/
def entryMarker (aliases : List String) (d : Decorator) : Marker :=
  if Marker.interface.marks aliases d then .interface else .implementation

theorem entryMarker_marks {aliases : List String} {d : Decorator} (h : isEntry aliases d = true) :
    (entryMarker aliases d).marks aliases d = true := by
  unfold entryMarker
  by_cases hi : Marker.interface.marks aliases d = true
  · rw [if_pos hi, hi]
  · rw [if_neg hi]
    simpa [isEntry, entryMarkers, hi] using h

/-- The markers that a decorator is recognised as: one for an entry marker, none for any other decorator. -/
theorem filter_entryMarkers (aliases : List String) (d : Decorator) :
    (entryMarkers.filter fun m => m.marks aliases d) =
      if isEntry aliases d then [entryMarker aliases d] else [] := by
  by_cases hi : Marker.interface.marks aliases d = true
  · have hj : Marker.implementation.marks aliases d = false := by
      rw [Bool.eq_false_iff]
      intro hj
      cases Marker.marks_unique hi hj
    simp [entryMarkers, isEntry, entryMarker, hi, hj]
  · by_cases hj : Marker.implementation.marks aliases d = true
    · simp [entryMarkers, isEntry, entryMarker, hi, hj]
    · simp [entryMarkers, isEntry, hi, hj]

theorem entries_eq (aliases : List String) (ds : List Decorator) :
    entries aliases ds = (entryDecorators aliases ds).map fun d => (entryMarker aliases d, d) := by
  induction ds with
  | nil => rfl
  | cons d ds ih =>
    have hcons : entries aliases (d :: ds) =
        ((entryMarkers.filter fun m => m.marks aliases d).map fun m => (m, d)) ++ entries aliases ds := rfl
    rw [hcons, ih, filter_entryMarkers, entryDecorators, entryDecorators, List.filter_cons]
    by_cases h : isEntry aliases d = true
    · simp [h]
    · simp [h]

theorem entry?_eq (aliases : List String) (ds : List Decorator) :
    entry? aliases ds =
      match entryDecorators aliases ds with
      | [] => .ok none
      | [d] => .ok (some (entryMarker aliases d, d))
      | _ :: second :: _ => violated .repeatedMarker second.extent? := by
  rw [ entry?, entries_eq]
  cases entryDecorators aliases ds with
  | nil => rfl
  | cons d rest => cases rest <;> rfl

end Conformance
