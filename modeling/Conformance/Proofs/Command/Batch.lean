import Conformance.Command.Run
import Conformance.Proofs.Expansion.Reporting
import Conformance.Proofs.Files.Writing

/-!
# The files of a batch

`expandFile` does two things: it reads a source and expands it, and it delivers what came of it.  The first is
`examine`, a function of the tree and the counter; the second changes the tree as `Files.Delivered` says.  A batch
examines its sources one after the other with the counter that the ones before have left (`schedule`).  It examines
them all in the tree as it was at the start as long as its outputs keep clear of each other and of the sources that
are still to come (`Undisturbed`), and then leaves behind exactly the files it has written (`Outputs`).
-/

namespace Conformance.Command

open Conformance.Path

/-! ## What is said -/

/-- The world after some events have arisen. -/
def World.hear (w : World) (es : List Event) : World :=
  { w with events := w.events ++ es.filter fun e => e.record.passes w.threshold }

theorem World.hear_nil (w : World) : w.hear [] = w := by
  simp [hear]

theorem World.hear_hear (w : World) (es fs : List Event) : (w.hear es).hear fs = w.hear (es ++ fs) := by
  simp [hear]

/-- The world after a step: the counter and the files are others, and events have arisen. -/
def World.advance (w : World) (counter : Nat) (files : Files) (es : List Event) : World :=
  { w with counter, files }.hear es

@[simp] theorem World.advance_counter (w : World) (n : Nat) (fs : Files) (es : List Event) :
    (w.advance n fs es).counter = n := rfl

theorem say_apply (e : Event) (w : World) : say e w = (.ok (), w.hear [e]) := by
  show (Except.ok (), if e.record.passes w.threshold then _ else w) = _
  by_cases h : e.record.passes w.threshold = true
  · simp [World.hear, h]
  · simp [World.hear, h]

theorem forM_say_apply {α : Type} (f : α → Event) (xs : List α) (w : World) :
    (xs.forM fun x => say (f x)) w = (.ok (), w.hear (xs.map f)) := by
  induction xs generalizing w with
  | nil => rw [List.map_nil, World.hear_nil]; rfl
  | cons x xs ih =>
    show (say (f x) >>= fun _ => xs.forM fun x => say (f x)) w = _
    rw [Computation.bind_of_ok (say_apply (f x) w), ih, World.hear_hear]
    rfl

/-! ## Examination of a source -/

/-- What comes of a source before anything is delivered. -/
structure Examination where
  /-- The counter after it. -/
  counter : Nat
  said : List Event
  result : FileResult
  /-- The text to deliver, if there is one. -/
  code : Option String

/-- Reads a source and expands it.  A text that is not reported on counts as failed. -/
def examine (settings : Settings) (fs : Files) (counter : Nat) (path : Path) : Examination :=
  match fs.readText path with
  | .error e => { counter, said := [.unreadable path e], result := { failed := true }, code := none }
  | .ok text =>
    match report settings path.text text counter with
    | (.ok r, p) =>
      { counter := p.counter
        said := p.log.map Event.detail ++ r.diagnostics.map Event.diagnosed
        result := { failed := !r.success, interfaces := r.interfaces.length,
                    implementations := r.implementations.length }
        code := if r.success then some r.code else none }
    | (.error _, p) =>
      { counter := p.counter, said := p.log.map Event.detail, result := { failed := true }, code := none }

/-- The expansion of a source that can be read returns, whatever the counter. -/
def Returns (settings : Settings) (fs : Files) (path : Path) : Prop :=
  ∀ text, fs.readText path = .ok text → ∀ counter, ∃ r, (report settings path.text text counter).1 = .ok r

section Examination

variable {settings : Settings} {fs : Files} {path : Path} {counter : Nat}

/-- Whether an expansion returns does not depend on the counter. -/
theorem returns_iff : Returns settings fs path ↔
    ∀ text ∈ (fs.readText path).toOption, (report settings path.text text 0).1.toOption.isSome = true := by
  have hraises (text : String) (counter : Nat) : (∃ r, (report settings path.text text counter).1 = .ok r) ↔
      ∀ m e, Source.Module.parse? text = some m → ¬ m.Unvalued settings path.text e := by
    have hliteral (e : Source.LiteralError) : (report settings path.text text counter).1 = .error e ↔
        ((expandText settings path.text text).run { counter }).1 = .error (.literal e) := by
      unfold report
      rcases (expandText settings path.text text).run { counter } with ⟨(f | e') | code, p⟩ <;> simp
    simp only [expandText_eq_literal] at hliteral
    rcases hreport : (report settings path.text text counter).1 with e | r
    · obtain ⟨m, hparse, hm⟩ := (hliteral e).mp hreport
      exact iff_of_false (by simp) fun h => h m e hparse hm
    · refine iff_of_true ⟨r, rfl⟩ fun m e hparse hm => ?_
      rw [(hliteral e).mpr ⟨m, hparse, hm⟩] at hreport
      cases hreport
  have hzero (text : String) : (report settings path.text text 0).1.toOption.isSome = true ↔
      ∃ r, (report settings path.text text 0).1 = .ok r := by
    rcases (report settings path.text text 0).1 with e | r <;> simp [Except.toOption]
  unfold Returns
  simp only [hzero, hraises, forall_const]
  rcases fs.readText path with e | text
  · simp [Except.toOption]
  · simp [Except.toOption]

instance : Decidable (Returns settings fs path) := decidable_of_iff _ returns_iff.symm

end Examination

/-! ## One file -/

section

variable {settings : Settings} {fs : Files} {path : Path} {w : World}

/-- What is said about a source that is delivered to `output` if there is something to deliver. -/
def Examination.report (x : Examination) (path output : Path) : List Event :=
  x.said ++ if x.code.isSome then [.expanded path output] else []

end

/-! ## The sources one after the other -/

/-- The counter that sources leave behind, one after the other. -/
def counterAfter (settings : Settings) (fs : Files) (counter : Nat) (paths : List Path) : Nat :=
  paths.foldl (fun n path => (examine settings fs n path).counter) counter

/-- The sources with what comes of them, each with the counter that those before have left. -/
def schedule (settings : Settings) (fs : Files) : Nat → List Path → List (Path × Examination)
  | _, [] => []
  | counter, path :: paths =>
    (path, examine settings fs counter path) :: schedule settings fs (examine settings fs counter path).counter paths

theorem schedule_fst (settings : Settings) (fs : Files) (counter : Nat) (paths : List Path) :
    (schedule settings fs counter paths).map Prod.fst = paths := by
  induction paths generalizing counter with
  | nil => rfl
  | cons path paths ih => rw [schedule, List.map_cons, ih]

/-- What is said about sources that are not delivered. -/
def findings (done : List (Path × Examination)) : List Event := done.flatMap fun a => a.2.said

/-- What is said about sources that are delivered to their targets. -/
def transcript (target : Path → Path) (done : List (Path × Examination)) : List Event :=
  done.flatMap fun a => a.2.report a.1 (target a.1)

/-- Neither path leads to the other one's place or through it. -/
structure Independent (p p' : Path) : Prop where
  apart : Path.normalize p.parts ≠ Path.normalize p'.parts
  notThrough : ¬ OnWay p'.parts.dropLast (Path.normalize p.parts)
  notThrough' : ¬ OnWay p.parts.dropLast (Path.normalize p'.parts)

/-- What is still to be expanded is undisturbed by what is delivered on the way: outputs can be written, they do not
stand in the way of each other, and none of them lands on a source that comes after it. -/
structure Undisturbed (fs : Files) (target : Path → Path) (todo : List (Path × Examination)) : Prop where
  there : ∀ a ∈ todo, fs.Passable a.1.parts.dropLast ∧ (fs.lookup? (Path.normalize a.1.parts)).isSome = true
  writable : ∀ a ∈ todo, a.2.code.isSome = true → fs.Writable (target a.1)
  unread : todo.Pairwise fun a b => a.2.code.isSome = true → Path.normalize b.1.parts ≠ Path.normalize (target a.1).parts
  independent : todo.Pairwise fun a b => a.2.code.isSome = true → b.2.code.isSome = true →
    Independent (target a.1) (target b.1)

/-- A delivery leaves the rest undisturbed. -/
theorem Undisturbed.tail {fs fs' : Files} {target : Path → Path} {a : Path × Examination}
    {todo : List (Path × Examination)} {content : List UInt8} (h : Undisturbed fs target (a :: todo))
    (hclosed : fs.Closed) (hcode : a.2.code.isSome = true) (hdelivered : Files.Delivered fs fs' (target a.1) content) :
    Undisturbed fs' target todo where
  there := by
    intro b hb
    obtain ⟨hpass, hthere⟩ := h.there b (List.mem_cons_of_mem _ hb)
    refine ⟨fun q hq => hdelivered.directory q (hpass q hq), ?_⟩
    have hne := (List.pairwise_cons.mp h.unread).1 b hb hcode
    rcases hentry : fs.lookup? (Path.normalize b.1.parts) with _ | c | _
    · rw [hentry] at hthere
      cases hthere
    · rw [(hdelivered.file _ c hne).mpr hentry]
      rfl
    · rw [hdelivered.directory _ hentry]
      rfl
  writable := by
    intro b hb hbcode
    obtain ⟨-, hway, hway'⟩ := (List.pairwise_cons.mp h.independent).1 b hb hcode hbcode
    exact hdelivered.writable hclosed (h.writable b (List.mem_cons_of_mem _ hb) hbcode) hway hway'
  unread := (List.pairwise_cons.mp h.unread).2
  independent := (List.pairwise_cons.mp h.independent).2

/-- The texts to deliver have been written, and no other file has changed. -/
structure Outputs (fs fs' : Files) (target : Path → Path) (done : List (Path × Examination)) : Prop where
  written : ∀ a ∈ done, ∀ code, a.2.code = some code →
    fs'.lookup? (Path.normalize (target a.1).parts) = some (.file (Text.Utf8.encode code))
  others : ∀ q, (∀ a ∈ done, a.2.code.isSome = true → q ≠ Path.normalize (target a.1).parts) → ∀ c,
    fs'.lookup? q = some (.file c) ↔ fs.lookup? q = some (.file c)

/-- A delivery, and what is delivered after it. -/
theorem Outputs.cons {fs fs₁ fs' : Files} {target : Path → Path} {a : Path × Examination}
    {rest : List (Path × Examination)} {code : String} (hcode : a.2.code = some code)
    (hdelivered : Files.Delivered fs fs₁ (target a.1) (Text.Utf8.encode code))
    (hapart : ∀ b ∈ rest, b.2.code.isSome = true → Path.normalize (target a.1).parts ≠ Path.normalize (target b.1).parts)
    (h : Outputs fs₁ fs' target rest) : Outputs fs fs' target (a :: rest) where
  written := by
    intro b hb code' hcode'
    rcases List.mem_cons.mp hb with rfl | hb
    · obtain rfl : code = code' := Option.some.inj (hcode.symm.trans hcode')
      exact (h.others _ hapart _).mpr hdelivered.written
    · exact h.written b hb code' hcode'
  others := by
    intro q hq c
    rw [h.others q (fun b hb => hq b (List.mem_cons_of_mem _ hb)) c]
    exact hdelivered.file q c (hq a List.mem_cons_self (by rw [hcode]; rfl))

end Conformance.Command
