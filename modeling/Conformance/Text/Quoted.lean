import Conformance.Text.Printable

/-!
# Quoted text

Text is quoted with single quotes, or with double quotes if it holds a single quote and no double one.
Inside, the quote and the backslash are escaped, printable characters stand for themselves, and every other
character is written by its number.
-/

namespace Conformance.Text

/-- A number in hexadecimal, with zeros in front up to a width. -/
def hex (width n : Nat) : String :=
  let digits := Nat.toDigits 16 n
  String.ofList (List.replicate (width - digits.length) '0' ++ digits)

/-- A character by its number, in the shortest of the three forms. -/
def numbered (n : Nat) : String :=
  if n < 0x100 then "\\x" ++ hex 2 n
  else if n < 0x10000 then "\\u" ++ hex 4 n
  else "\\U" ++ hex 8 n

/-- A character as it is written between quotes `q`. -/
def escaped (q c : Char) : String :=
  if c == q || c == '\\' then String.ofList ['\\', c]
  else if c == '\n' then "\\n"
  else if c == '\r' then "\\r"
  else if c == '\t' then "\\t"
  else if Printable.isPrintable c then c.toString
  else numbered c.toNat

/-- The quote that a text is written with. -/
def quoteFor (cs : List Char) : Char :=
  if cs.contains '\'' && !cs.contains '"' then '"' else '\''

/-- A text between quotes. -/
def quoted (s : String) : String :=
  let q := quoteFor s.toList
  q.toString ++ String.join (s.toList.map (escaped q)) ++ q.toString

end Conformance.Text
