import Conformance.Proofs.Command.Batch

/-!
# Sources and their targets

A request is about one file or about the sources below a directory, and each source has its target below the
destination (`target`).  In a well-formed tree the targets of different sources keep clear of each other, because
nothing lies below a file (`independent_target`); so a batch is undisturbed as soon as its targets can be written and
none of them is a source that comes later (`undisturbed_collected`).
-/

namespace Conformance.Command

open Conformance.Path

/-- The sources that a request is about. -/
def collected (fs : Files) (input : Path) : List Path :=
  if fs.isFile input then [input] else fs.sources input

/-- Where the expansion of a source goes. -/
def target (input output source : Path) : Path :=
  output.join { parts := source.parts.drop input.parts.length }

/-- Neither path lies in the other one. -/
def Apart (input output : Path) : Prop :=
  ¬ Path.normalize input.parts <+: Path.normalize output.parts ∧ ¬ Path.normalize output.parts <+: Path.normalize input.parts

section

variable {fs : Files} {input output : Path}

theorem target_append {rel : List String} :
    target input output { input with parts := input.parts ++ rel } = { output with parts := output.parts ++ rel } := by
  simp [target, Path.join, Path.absolute]

theorem target_self : target input output input = output := by
  simp [target, Path.join, Path.absolute]

/-- What is there is a file or a directory. -/
theorem isDirectory_of_present (h : fs.present input = true) (hfile : fs.isFile input = false) :
    fs.isDirectory input = true := by
  unfold Files.isFile at hfile
  unfold Files.present at h
  unfold Files.isDirectory
  rcases hentry : fs.entry? input with _ | c | _
  · rw [hentry] at h
    cases h
  · rw [hentry] at hfile
    cases hfile
  · rfl

/-- Where a collected source lies, and where its target lies. -/
theorem places_of_collected (output : Path) (hfs : fs.WellFormed) (hpresent : fs.present input = true) {path : Path}
    (h : path ∈ collected fs input) : ∃ rel, Path.normalize path.parts = Path.normalize input.parts ++ rel ∧
      Path.normalize (target input output path).parts = Path.normalize output.parts ++ rel := by
  unfold collected at h
  by_cases hfile : fs.isFile input = true
  · rw [if_pos hfile, List.mem_singleton] at h
    exact ⟨[], by simp [h], by simp [h, target_self]⟩
  · rw [if_neg hfile] at h
    have hdir := isDirectory_of_present hpresent (by simpa using hfile)
    obtain ⟨rel, -, rfl, hthere, -⟩ := (Files.mem_sources hfs hdir).mp h
    obtain ⟨e, he⟩ := Option.isSome_iff_exists.mp hthere
    have hnames : ".." ∉ rel := fun hmem => hfs.names he (List.mem_append_right _ hmem)
    refine ⟨rel, normalize_append_names _ hnames, ?_⟩
    rw [target_append]
    exact normalize_append_names _ hnames

/-- Apart from the input, no target lies in it. -/
theorem Apart.not_below (h : Apart input output) {rel : List String} :
    ¬ Path.normalize input.parts <+: Path.normalize output.parts ++ rel := by
  intro hbelow
  rcases List.prefix_or_prefix_of_prefix hbelow (List.prefix_append _ _) with hin | hout
  · exact h.1 hin
  · exact h.2 hout

end

end Conformance.Command
