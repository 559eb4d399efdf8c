import Conformance.Text.Identifier
import Conformance.Source.Token

/-!
# Lexemes

The smallest pieces of Python source: names, numbers, strings, operators, and the blanks between them.
Each reader takes the characters that are left and gives what it read together with the rest; `none`
means that the text is malformed there.

A string with replacement fields is read piece by piece, so that the expressions inside it become tokens
of their own.  The brackets and strings that are open at a point are a stack of `Frame`s: the top one says
whether the next characters are code or literal text.
-/

namespace Conformance.Source

open Conformance.Text

/-- What a reader gives: the characters it took and those that are left. -/
abbrev Cut := List Char × List Char

/-- Puts characters in front of what was taken. -/
def Cut.prepend (cs : List Char) (c : Cut) : Cut := (cs ++ c.1, c.2)

/-- Something that is open. -/
inductive Frame where
  /-- A bracket, with the character that closes it. -/
  | bracket (close : Char)
  /-- The literal text of a string with replacement fields. -/
  | text (quote : Char) (triple raw : Bool)
  /-- A replacement field of such a string. -/
  | field
  /-- The format part of a replacement field, literal text again. -/
  | format
  deriving DecidableEq, Repr

/-- Whether the characters that come next are literal text. -/
def literal : List Frame → Bool
  | .text .. :: _ => true
  | .format :: _ => true
  | _ => false

/-! ## Blanks -/

/-- Blanks inside a logical line, in which a backslash joins a physical line to the next one.  A backslash
that stands elsewhere, or that ends the text, is malformed. -/
def blanks : List Char → Option Cut
  | '\\' :: '\r' :: '\n' :: cs =>
    if cs.isEmpty then none else (blanks cs).map (Cut.prepend ['\\', '\r', '\n'])
  | '\\' :: '\r' :: cs => if cs.isEmpty then none else (blanks cs).map (Cut.prepend ['\\', '\r'])
  | '\\' :: '\n' :: cs => if cs.isEmpty then none else (blanks cs).map (Cut.prepend ['\\', '\n'])
  | c :: cs =>
    if c = '\\' then none
    else if isBlank c then (blanks cs).map (Cut.prepend [c])
    else some ([], c :: cs)
  | [] => some ([], [])

/-- A comment up to the end of its line, empty if none starts here. -/
def comment : List Char → Cut
  | '#' :: cs => (('#' :: cs).takeWhile (!isNewline ·), ('#' :: cs).dropWhile (!isNewline ·))
  | cs => ([], cs)

/-- The lines of white space inside brackets, after the blanks of the first one. -/
def breaks : Nat → List Char → Option (List Break × List Char)
  | 0, _ => none
  | n + 1, cs =>
    let (note, rest) := comment cs
    match lineBreak? rest with
    | none => some ([], cs)
    | some (nl, rest) => do
      let (blank, rest) ← blanks rest
      let (more, rest) ← breaks n rest
      let first : Break :=
        { comment := String.ofList note, newline := .own (String.ofList nl), blank := String.ofList blank }
      return (first :: more, rest)

/-- The white space after a token.  Literal text follows at once, brackets may hold line breaks, and
elsewhere there are only blanks. -/
def trivia (open_ : List Frame) (cs : List Char) : Option (Trivia × List Char) :=
  if literal open_ then some ({}, cs)
  else do
    let (blank, rest) ← blanks cs
    if open_.isEmpty then return ({ blank := String.ofList blank }, rest)
    let (lines, rest) ← breaks (rest.length + 1) rest
    return ({ blank := String.ofList blank, breaks := lines }, rest)

/-! ## Numbers -/

/-- Digits that may be grouped by single underscores. -/
def digits (isDigit : Char → Bool) : List Char → Option Cut
  | '_' :: d :: cs => if isDigit d then (digits isDigit cs).map (Cut.prepend ['_', d]) else none
  | ['_'] => none
  | c :: cs => if isDigit c then (digits isDigit cs).map (Cut.prepend [c]) else some ([], c :: cs)
  | [] => some ([], [])

/-- Digits of which there must be one. -/
def someDigits (isDigit : Char → Bool) (cs : List Char) : Option Cut :=
  (digits isDigit cs).bind fun c => if c.1.isEmpty then none else some c

/-- The exponent of a number, empty if there is none. -/
def exponent : List Char → Option Cut
  | e :: s :: d :: cs =>
    if e = 'e' ∨ e = 'E' then
      if s.isDigit then (digits Char.isDigit (d :: cs)).map (Cut.prepend [e, s])
      else if (s = '+' ∨ s = '-') ∧ d.isDigit then (digits Char.isDigit cs).map (Cut.prepend [e, s, d])
      else some ([], e :: s :: d :: cs)
    else some ([], e :: s :: d :: cs)
  | [e, d] => if (e = 'e' ∨ e = 'E') ∧ d.isDigit then some ([e, d], []) else some ([], [e, d])
  | cs => some ([], cs)

/-- The letter that makes a number imaginary, empty if there is none. -/
def imaginary : List Char → Cut
  | c :: cs => if c = 'j' ∨ c = 'J' then ([c], cs) else ([], c :: cs)
  | [] => ([], [])

/-- The fraction of a number with its point, empty if there is none. -/
def fraction : List Char → Option Cut
  | '.' :: d :: cs =>
    if d.isDigit then (digits Char.isDigit (d :: cs)).map (Cut.prepend ['.']) else some (['.'], d :: cs)
  | ['.'] => some (['.'], [])
  | cs => some ([], cs)

/-- A decimal number.  One that starts with a zero and has another digit must have a fraction, an exponent
or the imaginary letter. -/
def decimal (cs : List Char) : Option Cut := do
  let (whole, rest) ← digits Char.isDigit cs
  let (part, rest) ← fraction rest
  let (power, rest) ← exponent rest
  let (suffix, rest) := imaginary rest
  let tail := part ++ power ++ suffix
  if tail.isEmpty && whole.head? == some '0' && whole.any fun c => c != '0' && c != '_' then none
  else some (whole ++ tail, rest)

/-- A digit to the base sixteen. -/
def isHexDigit (c : Char) : Bool :=
  c.isDigit || ('a' ≤ c.toLower && c.toLower ≤ 'f')

/-- A number. -/
def number : List Char → Option Cut
  | '0' :: b :: cs =>
    if b = 'x' ∨ b = 'X' then (someDigits isHexDigit cs).map (Cut.prepend ['0', b])
    else if b = 'o' ∨ b = 'O' then (someDigits (fun c => '0' ≤ c && c ≤ '7') cs).map (Cut.prepend ['0', b])
    else if b = 'b' ∨ b = 'B' then (someDigits (fun c => c = '0' || c = '1') cs).map (Cut.prepend ['0', b])
    else decimal ('0' :: b :: cs)
  | cs => decimal cs

/-! ## Strings -/

/-- The rest of a string between single quotes, with the closing quote. -/
def closeSingle (quote : Char) : List Char → Option Cut
  | '\\' :: '\r' :: '\n' :: cs => (closeSingle quote cs).map (Cut.prepend ['\\', '\r', '\n'])
  | '\\' :: c :: cs => (closeSingle quote cs).map (Cut.prepend ['\\', c])
  | c :: cs =>
    if c = quote then some ([c], cs)
    else if isNewline c then none
    else (closeSingle quote cs).map (Cut.prepend [c])
  | [] => none

/-- The rest of a string between triple quotes, with the closing quotes. -/
def closeTriple (quote : Char) : List Char → Option Cut
  | '\\' :: c :: cs => (closeTriple quote cs).map (Cut.prepend ['\\', c])
  | a :: b :: c :: cs =>
    if a = quote ∧ b = quote ∧ c = quote then some ([a, b, c], cs)
    else (closeTriple quote (b :: c :: cs)).map (Cut.prepend [a])
  | _ => none

/-- A string from its opening quote on. -/
def quoted : List Char → Option Cut
  | q :: b :: c :: cs =>
    if b = q ∧ c = q then (closeTriple q cs).map (Cut.prepend [q, b, c])
    else (closeSingle q (b :: c :: cs)).map (Cut.prepend [q])
  | q :: cs => (closeSingle q cs).map (Cut.prepend [q])
  | [] => none

/-- What letters before a quote make of a string. -/
inductive StringForm where
  | plain
  | template (raw : Bool)
  deriving DecidableEq, Repr

/-- The form of a string with these letters before its quote, if they may stand there. -/
def StringForm.ofLetters? (letters : List Char) : Option StringForm :=
  let low := String.ofList (letters.map Char.toLower)
  if low ∈ ["", "r", "u", "b", "br", "rb"] then some .plain
  else if low ∈ ["f", "t"] then some (.template false)
  else if low ∈ ["fr", "rf", "tr", "rt"] then some (.template true)
  else none

/-- Whether the closing quotes of a string stand here. -/
def closes (quote : Char) (triple : Bool) : List Char → Bool
  | a :: b :: c :: _ => if triple then a = quote && b = quote && c = quote else a = quote
  | a :: _ => !triple && a = quote
  | [] => false

/-- Literal text of a string with replacement fields, up to a field, the end of the format part or the
closing quotes.  Doubled braces are text; so are the braces of a character named with `\N`. -/
def templateText (quote : Char) (triple raw inFormat : Bool) : (named : Bool) → List Char → Option Cut
  | _, [] => none
  | named, '\\' :: cs =>
    match raw, cs with
    | _, [] => none
    | true, c :: rest =>
      if c = '"' ∨ c = '\'' ∨ c = '\\' then
        (templateText quote triple raw inFormat named rest).map (Cut.prepend ['\\', c])
      else (templateText quote triple raw inFormat named (c :: rest)).map (Cut.prepend ['\\'])
    | false, 'N' :: '{' :: rest =>
      if inFormat then
        (templateText quote triple raw inFormat named ('{' :: rest)).map (Cut.prepend ['\\', 'N'])
      else (templateText quote triple raw inFormat true rest).map (Cut.prepend ['\\', 'N', '{'])
    | false, '\r' :: '\n' :: rest =>
      (templateText quote triple raw inFormat named rest).map (Cut.prepend ['\\', '\r', '\n'])
    | false, c :: rest =>
      if c = '{' ∨ c = '}' then
        (templateText quote triple raw inFormat named (c :: rest)).map (Cut.prepend ['\\'])
      else (templateText quote triple raw inFormat named rest).map (Cut.prepend ['\\', c])
  | named, c :: cs =>
    if closes quote triple (c :: cs) then some ([], c :: cs)
    else if isNewline c && !triple then none
    else if c = '{' then
      match cs with
      | '{' :: rest =>
        if inFormat then some ([], c :: cs)
        else (templateText quote triple raw inFormat named rest).map (Cut.prepend ['{', '{'])
      | _ => some ([], c :: cs)
    else if c = '}' then
      if named then (templateText quote triple raw inFormat false cs).map (Cut.prepend ['}'])
      else
        match cs with
        | '}' :: rest =>
          if inFormat then some ([], c :: cs)
          else (templateText quote triple raw inFormat named rest).map (Cut.prepend ['}', '}'])
        | _ => some ([], c :: cs)
    else (templateText quote triple raw inFormat named cs).map (Cut.prepend [c])

/-! ## Operators -/

/-- The operators, longer ones first. -/
def operators : List String :=
  ["...", "**=", "//=", ">>=", "<<=",
   "**", "//", ">>", "<<", "<=", ">=", "==", "!=", "->", "+=", "-=", "*=", "/=", "%=", "&=", "|=", "^=",
   "@=", ":=",
   "+", "-", "*", "/", "%", "@", "&", "|", "^", "~", "<", ">", ",", ":", ".", ";", "="]

/-- The longest operator the characters start with. -/
def operator (cs : List Char) : Option Cut :=
  operators.findSome? fun op => (stripFront? op.toList cs).map fun rest => (op.toList, rest)

/-! ## One lexeme -/

/-- A token without its white space, what is open after it, and the characters that are left. -/
structure Lexeme where
  kind : TokenKind
  text : List Char
  stack : List Frame
  rest : List Char

/-- The bracket that closes the given one. -/
def closing? : Char → Option Char
  | '(' => some ')'
  | '[' => some ']'
  | '{' => some '}'
  | _ => none

/-- The string whose literal text encloses this point. -/
def enclosingText? : List Frame → Option (Char × Bool × Bool)
  | [] => none
  | .text q triple raw :: _ => some (q, triple, raw)
  | _ :: fs => enclosingText? fs

/-- The next lexeme where literal text stands. -/
def literalLexeme (stack : List Frame) (cs : List Char) : Option Lexeme := do
  let (q, triple, raw) ← enclosingText? stack
  let inFormat := stack.head? == some .format
  let (text, rest) ← templateText q triple raw inFormat false cs
  if !text.isEmpty then return ⟨.templateText, text, stack, rest⟩
  match rest, stack with
  | '{' :: more, _ => some ⟨.operator, ['{'], .field :: stack, more⟩
  | '}' :: more, .format :: .field :: outer => some ⟨.operator, ['}'], outer, more⟩
  | _, .text .. :: outer =>
    if closes q triple rest then
      let n := if triple then 3 else 1
      some ⟨.templateEnd, rest.take n, outer, rest.drop n⟩
    else none
  | _, _ => none

/-- The next lexeme where code stands. -/
def codeLexeme (stack : List Frame) (cs : List Char) : Option Lexeme :=
  match cs with
  | [] => none
  | c :: rest =>
    let word := cs.takeWhile Identifier.mayContinue
    let beyond := cs.dropWhile Identifier.mayContinue
    let quote := beyond.head?.filter fun q => q == '"' || q == '\''
    if Identifier.mayStart c || c == '"' || c == '\'' then
      match quote, StringForm.ofLetters? word with
      | some _, some .plain => (quoted beyond).map fun (s, rest) => ⟨.string, word ++ s, stack, rest⟩
      | some q, some (.template raw) =>
        let triple := closes q true beyond
        let n := if triple then 3 else 1
        some ⟨.templateStart, word ++ beyond.take n, .text q triple raw :: stack, beyond.drop n⟩
      | _, _ => if Identifier.isName word then some ⟨.name, word, stack, beyond⟩ else none
    else if c.isDigit || (c == '.' && rest.head?.any Char.isDigit) then
      (number cs).map fun (s, rest) => ⟨.number, s, stack, rest⟩
    else
      match closing? c, stack with
      | some close, _ => some ⟨.operator, [c], .bracket close :: stack, rest⟩
      | none, .bracket close :: outer =>
        if c = close then some ⟨.operator, [c], outer, rest⟩
        else (operator cs).map fun (s, rest) => ⟨.operator, s, stack, rest⟩
      | none, .field :: outer =>
        if c = '}' then some ⟨.operator, [c], outer, rest⟩
        else if c = ':' then some ⟨.operator, [c], .format :: stack, rest⟩
        else if c = '!' && rest.head? != some '=' then some ⟨.operator, [c], stack, rest⟩
        else (operator cs).map fun (s, rest) => ⟨.operator, s, stack, rest⟩
      | none, _ => (operator cs).map fun (s, rest) => ⟨.operator, s, stack, rest⟩

/-- The next lexeme. -/
def lexeme (stack : List Frame) (cs : List Char) : Option Lexeme :=
  if literal stack then literalLexeme stack cs else codeLexeme stack cs

end Conformance.Source
