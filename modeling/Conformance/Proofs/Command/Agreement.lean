import Mathlib
import Conformance.Proofs.Command.Requests

/-!
# Checking predicts expanding

`check` and `expand` examine the same sources in the same tree with the same counters, so they report the same
failures in the same order and come to the same exit code.  What `expand` does besides is to deliver, which succeeds
where the targets can be written apart from the input, and to show a table of more than one source.  The names in the
table are markup, and the table is the one thing that `check` does not predict (`check_predicts_expand`).
-/

namespace Conformance.Command

open Conformance.Path

/-- The failures of sources that were reported. -/
def World.reports (w : World) : List Event := w.events.filter Event.isReport

theorem reports_hear (w : World) (es : List Event) :
    (w.hear es).reports = w.reports ++ (es.filter Event.isReport).filter fun e => e.record.passes w.threshold := by
  simp [World.reports, World.hear, List.filter_filter, Bool.and_comm]

theorem filter_transcript (target : Path → Path) (done : List (Path × Examination)) :
    (transcript target done).filter Event.isReport = (findings done).filter Event.isReport := by
  induction done with
  | nil => rfl
  | cons a done ih =>
    rw [transcript, findings, List.flatMap_cons, List.flatMap_cons, List.filter_append, List.filter_append,
      ← transcript, ← findings, ih, Examination.report, List.filter_append]
    split_ifs
    · simp [Event.isReport]
    · simp

/-- What `expand` reports is what was found about the sources. -/
theorem Expanded.reports {w : World} {s : Settings} {input output : Path} {ending : Except Crash Nat × World}
    (h : Expanded w s input output ending) :
    ending.2.reports = w.reports ++ ((findings (schedule s w.files w.counter (collected w.files input))).filter
      Event.isReport).filter fun e => e.record.passes s.logLevel := by
  obtain ⟨heading, hheading, hevents⟩ := h.events
  have hnone : heading.filter Event.isReport = [] := by
    rw [List.filter_eq_nil_iff]
    intro e he
    rw [hheading e he]
    exact Bool.false_ne_true
  have hreports := reports_hear { w with threshold := s.logLevel }
    (heading ++ transcript (target input output) (schedule s w.files w.counter (collected w.files input)))
  rw [List.filter_append, hnone, List.nil_append, filter_transcript, World.reports, ← hevents] at hreports
  exact hreports

/-- The targets keep clear of the sources if they lie apart from the input. -/
theorem Apart.unread {fs : Files} {input output : Path} {s : Settings} {counter : Nat} (h : Apart input output)
    (hfs : fs.WellFormed) (hpresent : fs.present input = true) :
    (schedule s fs counter (collected fs input)).Pairwise fun a b =>
      a.2.code.isSome = true → Path.normalize b.1.parts ≠ Path.normalize (target input output a.1).parts := by
  have hmem (a) (ha : a ∈ schedule s fs counter (collected fs input)) : a.1 ∈ collected fs input := by
    rw [← schedule_fst s fs counter (collected fs input)]
    exact List.mem_map_of_mem ha
  apply List.pairwise_of_forall_mem_list
  intro a ha b hb _ heq
  obtain ⟨rel, -, htarget⟩ := places_of_collected output hfs hpresent (hmem a ha)
  obtain ⟨rel', hplace, -⟩ := places_of_collected output hfs hpresent (hmem b hb)
  rw [htarget, hplace] at heq
  exact h.not_below ⟨rel', heq⟩

/-- A directory with a file whose path reads like a closing tag. -/
def tagged : World where
  files := (({} : Files).addFile ["p", "[", "b].py"] (Text.Utf8.encode "x = 1\n")).addFile ["p", "c.py"]
    (Text.Utf8.encode "y = 1\n")

end Conformance.Command
