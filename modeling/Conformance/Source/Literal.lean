import Conformance.Source.Lexeme
import Conformance.Text.Lines

/-!
# The value of a string literal

A literal without replacement fields stands for text or for bytes.  Text is a list of code points, because an
escape can name half of a surrogate pair.  A literal that is read as a token may still have no value: an escape
with too few digits, a number beyond the last code point, or a character that bytes cannot hold.

Places in the messages count the bytes of the literal after each character beyond ASCII has been spelled out as
an escape of ten bytes.
-/

namespace Conformance.Source

/-- Why a literal has no value. -/
inductive LiteralError where
  /-- An escape that starts and stops at these places, with the reason. -/
  | badEscape (start stop : Nat) (reason : String)
  /-- A hexadecimal escape in bytes, with its place. -/
  | badByte (start : Nat)
  /-- A character beyond ASCII in bytes. -/
  | notAscii
  deriving DecidableEq, Repr

/-- What is said about a literal without a value. -/
def LiteralError.message : LiteralError → String
  | badEscape start stop reason =>
    "(unicode error) 'unicodeescape' codec can't decode bytes in position " ++ start.repr ++ "-" ++
      (stop - 1).repr ++ ": " ++ reason ++ " (<unknown>, line 1)"
  | badByte start => "(value error) invalid \\x escape at position " ++ start.repr ++ " (<unknown>, line 1)"
  | notAscii => "bytes can only contain ASCII literal characters (<unknown>, line 1)"

/-- The value of a literal. -/
inductive Literal where
  | text (points : List Nat)
  | bytes (values : List Nat)
  deriving DecidableEq, Repr

/-- The value of a hexadecimal digit. -/
def hexDigit? (c : Char) : Option Nat :=
  if '0' ≤ c ∧ c ≤ '9' then some (c.toNat - '0'.toNat)
  else if 'a' ≤ c ∧ c ≤ 'f' then some (c.toNat - 'a'.toNat + 10)
  else if 'A' ≤ c ∧ c ≤ 'F' then some (c.toNat - 'A'.toNat + 10)
  else none

/-- The character that a single letter after a backslash stands for. -/
def simpleEscape? : Char → Option Nat
  | '\\' => some 92
  | '\'' => some 39
  | '"' => some 34
  | 'a' => some 7
  | 'b' => some 8
  | 't' => some 9
  | 'n' => some 10
  | 'v' => some 11
  | 'f' => some 12
  | 'r' => some 13
  | _ => none

/-- The letter with a name such as `LATIN SMALL LETTER A`.  Every other name stands for some character that is
no Latin letter. -/
def namedPoint (name : List Char) : Nat :=
  let upper := String.ofList (name.map Char.toUpper)
  let letters := (List.range 26).map fun i => Char.ofNat ('A'.toNat + i)
  match letters.find? fun c => upper == "LATIN CAPITAL LETTER " ++ c.toString with
  | some c => c.toNat
  | none =>
    match letters.find? fun c => upper == "LATIN SMALL LETTER " ++ c.toString with
    | some c => c.toNat + 32
    | none => 0xFFFD

/-- How far an escape has been read. -/
inductive Escape where
  | outside
  /-- After the backslash at a place. -/
  | opened (start : Nat)
  /-- In octal digits, of which some more may come. -/
  | octal (more value : Nat)
  /-- In hexadecimal digits after a letter, of which some more must come. -/
  | digits (letter : Char) (start more value : Nat)
  /-- After `\N`. -/
  | naming (start : Nat)
  /-- In a name, read backwards. -/
  | named (start : Nat) (name : List Char)
  deriving DecidableEq, Repr

/-- What is said about an escape with too few digits. -/
def truncated (letter : Char) : String :=
  if letter = 'x' then "truncated \\xXX escape"
  else if letter = 'u' then "truncated \\uXXXX escape"
  else "truncated \\UXXXXXXXX escape"

/-- What is said about a name that is not written between braces. -/
def malformedName : String := "malformed \\N character escape"

/-- The bytes that a character takes once it is spelled out. -/
def spelledWidth (c : Char) : Nat :=
  if c.toNat < 0x80 then 1 else 10

/-- Replaces the escapes in the characters from place `pos` on by what they stand for.  Only text (`wide`) has
escapes for characters beyond the first 256. -/
def unescape (wide : Bool) (state : Escape) (pos : Nat) : List Char → Except LiteralError (List Nat)
  | [] =>
    match state with
    | .outside => .ok []
    | .opened _ => .ok [92]
    | .octal _ value => .ok [value]
    | .digits letter start _ _ => .error (.badEscape start pos (truncated letter))
    | .naming start => .error (.badEscape start pos malformedName)
    | .named start _ => .error (.badEscape start pos malformedName)
  | c :: cs =>
    let next := pos + spelledWidth c
    /- The character by itself, where no escape is open. -/
    let plain : Except LiteralError (List Nat) :=
      if c = '\\' then unescape wide (.opened pos) next cs
      else (unescape wide .outside next cs).map (c.toNat :: ·)
    match state with
    | .outside => plain
    | .opened start =>
      if c = '\n' then unescape wide .outside next cs
      else if '0' ≤ c ∧ c ≤ '7' then unescape wide (.octal 2 (c.toNat - 48)) next cs
      else if c = 'x' then unescape wide (.digits c start 2 0) next cs
      else if wide ∧ c = 'u' then unescape wide (.digits c start 4 0) next cs
      else if wide ∧ c = 'U' then unescape wide (.digits c start 8 0) next cs
      else if wide ∧ c = 'N' then unescape wide (.naming start) next cs
      else
        match simpleEscape? c with
        | some n => (unescape wide .outside next cs).map (n :: ·)
        | none =>
          -- A backslash before a character beyond ASCII is spelled out, too.
          let next := if c.toNat < 0x80 then next else next + 5
          (unescape wide .outside next cs).map fun rest => 92 :: c.toNat :: rest
    | .octal more value =>
      if '0' ≤ c ∧ c ≤ '7' then
        let value := value * 8 + (c.toNat - 48)
        match more with
        | 0 | 1 => (unescape wide .outside next cs).map (value :: ·)
        | more + 1 => unescape wide (.octal more value) next cs
      else plain.map (value :: ·)
    | .digits letter start more value =>
      match hexDigit? c with
      | none => .error (.badEscape start pos (truncated letter))
      | some d =>
        let value := value * 16 + d
        match more with
        | 0 | 1 =>
          if value > 0x10FFFF then .error (.badEscape start next "illegal Unicode character")
          else (unescape wide .outside next cs).map (value :: ·)
        | more + 1 => unescape wide (.digits letter start more value) next cs
    | .naming start =>
      if c = '{' then unescape wide (.named start []) next cs
      else .error (.badEscape start pos malformedName)
    | .named start name =>
      if c = '}' then
        if name.isEmpty then .error (.badEscape start pos malformedName)
        else (unescape wide .outside next cs).map (namedPoint name.reverse :: ·)
      else unescape wide (.named start (c :: name)) next cs

/-- Whether every hexadecimal escape in the characters of bytes has its two digits; the place of the first one
that has not. -/
def badByte? (pos : Nat) : List Char → Option Nat
  | '\\' :: 'x' :: a :: b :: cs =>
    if (hexDigit? a).isSome && (hexDigit? b).isSome then badByte? (pos + 4) cs else some pos
  | '\\' :: 'x' :: _ => some pos
  | '\\' :: _ :: cs => badByte? (pos + 2) cs
  | _ :: cs => badByte? (pos + 1) cs
  | [] => none

/-- The characters of a literal without its letters and quotes. -/
def literalBody (beyond : List Char) : List Char :=
  match beyond with
  | q :: b :: c :: cs =>
    if b = q ∧ c = q ∧ 6 ≤ beyond.length then cs.take (cs.length - 3) else (b :: c :: cs).dropLast
  | cs => cs.tail.dropLast

/-- The value of a string literal. -/
def Literal.evaluate (literal : String) : Except LiteralError Literal := do
  let cs := literal.toList
  let letters := (cs.takeWhile Char.isAlpha).map Char.toLower
  let body := Text.unifyBreaks (literalBody (cs.dropWhile Char.isAlpha))
  let raw := letters.contains 'r'
  if letters.contains 'b' then
    if body.any fun c => 0x80 ≤ c.toNat then throw .notAscii
    if raw then return .bytes (body.map Char.toNat)
    match badByte? 0 body with
    | some pos => throw (.badByte pos)
    | none => return .bytes ((← unescape false .outside 0 body).map (· % 256))
  else if raw || !body.contains '\\' then return .text (body.map Char.toNat)
  else return .text (← unescape true .outside 0 body)

end Conformance.Source
