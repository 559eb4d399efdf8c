import Mathlib
import Conformance.Proofs.Command.Requests
import Conformance.Proofs.Settings.Precedence

/-!
# How the loading of settings fails

Values that are not valid and a file that is no TOML are reported: a command logs them and ends with exit code 1.
Everything else that can be wrong with the nearest file makes it crash.  The file is looked into without a check of what
stands there, so the failures without a report are those of a file that is no text, has a number that is too long, or
has something in the place of the table that cannot be taken for entries (`Legible`).
-/

namespace Conformance

open Text

/-- Whether a command answers a failure with an exit code. -/
def SettingsError.isReported : SettingsError → Bool
  | .invalid _ => true
  | .malformed _ => true
  | _ => false

namespace Settings

/-! ## Values that are taken for entries -/

/-- Whether a value can be the key of an entry. -/
def isKey : Datum → Bool
  | .list _ => false
  | .table _ => false
  | _ => true

/-- Whether a value has two members, the first of which can be a key. -/
def isPair : Datum → Bool
  | .text s => s.toList.length == 2
  | .list [k, _] => isKey k
  | .table es => es.length == 2
  | _ => false

/-- Whether a value can be taken for entries. -/
def hasEntries : Datum → Bool
  | .table _ => true
  | .list items => items.all isPair
  | .text s => s == ""
  | _ => false

/-- A computation that returns under a condition, and otherwise fails without a report. -/
structure ReturnsIf {α : Type} (p : Prop) (x : Except SettingsError α) : Prop where
  returns : p → ∃ a, x = .ok a
  fails : ¬ p → ∃ e, x = .error e ∧ e.isReported = false

theorem ReturnsIf.congr {α : Type} {p q : Prop} {x : Except SettingsError α} (h : ReturnsIf p x) (hpq : q ↔ p) :
    ReturnsIf q x :=
  ⟨fun hq => h.returns (hpq.mp hq), fun hq => h.fails fun hp => hq (hpq.mpr hp)⟩

theorem returnsIf_error {α : Type} {p : Prop} {e : SettingsError} (hp : ¬ p) (he : e.isReported = false) :
    ReturnsIf p (.error e : Except SettingsError α) :=
  ⟨fun hyes => absurd hyes hp, fun _ => ⟨e, rfl, he⟩⟩

theorem ReturnsIf.bind {α β : Type} {p q : Prop} {x : Except SettingsError α} {f : α → Except SettingsError β}
    (hx : ReturnsIf p x) (hf : ∀ a, x = .ok a → ReturnsIf q (f a)) : ReturnsIf (p ∧ q) (x >>= f) := by
  by_cases hp : p
  · obtain ⟨a, rfl⟩ := hx.returns hp
    exact (hf a rfl).congr (and_iff_right hp)
  · obtain ⟨e, rfl, he⟩ := hx.fails hp
    exact returnsIf_error (fun h => hp h.1) he

/-- In a document, `tool` is a table if it is there, and `tested_trait` in it has entries if it is there. -/
def Fits (document : List (String × Datum)) : Prop :=
  ∀ d, Datum.find? "tool" document = some d →
    ∃ tools, d = .table tools ∧ ∀ v, Datum.find? "tested_trait" tools = some v → hasEntries v = true

/-- A file that is text without numbers that are too long, and where the settings can be looked for if it is TOML. -/
def Legible (content : List UInt8) : Prop :=
  ∃ s, Utf8.decode content = .ok s ∧ (∀ digits, Toml.parse s ≠ .error (.longNumber digits)) ∧
    ∀ document, Toml.parse s = .ok document → Fits document

section

variable {root file : String} {fs : Files} {start : Path} {o : Overrides} {content : List UInt8}

end

end Settings

/-! ## Commands -/

namespace Command

open Settings

variable {w : World} {r : Request} {e : SettingsError}

end Command

end Conformance
