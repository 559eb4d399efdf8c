import Conformance.Text.Quoted

/-!
# UTF-8

Bytes are read one after the other.  After the first byte of a longer character the state says how many bytes
are owed and between which bounds the next one has to be, so that overlong forms, surrogates and numbers beyond
the last code point are refused at the first byte that rules them out.
-/

namespace Conformance.Text.Utf8

/-- Why bytes are no text. -/
inductive Refusal where
  | invalidStart
  | invalidContinuation
  | unexpectedEnd
  deriving DecidableEq, Repr

/-- The bytes that could not be read: the first one, and the places where they start and stop. -/
structure DecodeError where
  refusal : Refusal
  byte : UInt8
  start : Nat
  stop : Nat
  deriving DecidableEq, Repr

def Refusal.message : Refusal → String
  | invalidStart => "invalid start byte"
  | invalidContinuation => "invalid continuation byte"
  | unexpectedEnd => "unexpected end of data"

/-- What is said about bytes that are no text. -/
def DecodeError.message (e : DecodeError) : String :=
  let place :=
    if e.stop == e.start + 1 then "byte 0x" ++ hex 2 e.byte.toNat ++ " in position " ++ e.start.repr
    else "bytes in position " ++ e.start.repr ++ "-" ++ (e.stop - 1).repr
  "'utf-8' codec can't decode " ++ place ++ ": " ++ e.refusal.message

/-- A character of which some bytes are still owed. -/
structure Pending where
  byte : UInt8
  start : Nat
  owed : Nat
  low : Nat
  high : Nat
  value : Nat
  deriving Repr

/-- What the first byte of a longer character announces. -/
def pending? (pos : Nat) (b : UInt8) : Option Pending :=
  let n := b.toNat
  if 0xc2 ≤ n && n ≤ 0xdf then some ⟨b, pos, 1, 0x80, 0xbf, n - 0xc0⟩
  else if n == 0xe0 then some ⟨b, pos, 2, 0xa0, 0xbf, 0⟩
  else if n == 0xed then some ⟨b, pos, 2, 0x80, 0x9f, 13⟩
  else if 0xe1 ≤ n && n ≤ 0xef then some ⟨b, pos, 2, 0x80, 0xbf, n - 0xe0⟩
  else if n == 0xf0 then some ⟨b, pos, 3, 0x90, 0xbf, 0⟩
  else if 0xf1 ≤ n && n ≤ 0xf3 then some ⟨b, pos, 3, 0x80, 0xbf, n - 0xf0⟩
  else if n == 0xf4 then some ⟨b, pos, 3, 0x80, 0x8f, 4⟩
  else none

/-- Reads the bytes from place `pos` on. -/
def decodeFrom (pos : Nat) (state : Option Pending) : List UInt8 → Except DecodeError (List Char)
  | [] =>
    match state with
    | none => .ok []
    | some p => .error ⟨.unexpectedEnd, p.byte, p.start, pos⟩
  | b :: bs =>
    match state with
    | none =>
      if b.toNat < 0x80 then (decodeFrom (pos + 1) none bs).map (Char.ofNat b.toNat :: ·)
      else
        match pending? pos b with
        | none => .error ⟨.invalidStart, b, pos, pos + 1⟩
        | some p => decodeFrom (pos + 1) (some p) bs
    | some p =>
      if p.low ≤ b.toNat && b.toNat ≤ p.high then
        let value := p.value * 64 + (b.toNat - 0x80)
        match p.owed with
        | 0 | 1 => (decodeFrom (pos + 1) none bs).map (Char.ofNat value :: ·)
        | owed + 1 => decodeFrom (pos + 1) (some { p with owed, low := 0x80, high := 0xbf, value }) bs
      else .error ⟨.invalidContinuation, p.byte, p.start, pos⟩

/-- The text that bytes stand for. -/
def decode (bytes : List UInt8) : Except DecodeError String :=
  (decodeFrom 0 none bytes).map String.ofList

/-- The bytes of a text. -/
def encode (s : String) : List UInt8 :=
  s.toUTF8.data.toList

end Conformance.Text.Utf8
