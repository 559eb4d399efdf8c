import Conformance.Text.Blank

/-!
# Markup

Messages are written with tags in brackets, such as `[path]…[/path]`.  A bracket opens a tag if a letter, a
sharp sign, a slash or an at sign follows it and it is closed before the next one opens.  After an odd number of
backslashes a tag is text; half of the backslashes are shown.  Before any other bracket one backslash vanishes.
-/

namespace Conformance.Markup

open Text

/-- A character by itself, or a tag with the number of backslashes before it. -/
inductive Piece where
  | plain (c : Char)
  | tag (slashes : Nat) (body : List Char)
  deriving DecidableEq, Repr

/-- A character that a tag may start with. -/
def startsTag (c : Char) : Bool :=
  ('a' ≤ c && c ≤ 'z') || c == '#' || c == '/' || c == '@'

/-- The inside of a tag after its opening bracket, and the characters after the closing one. -/
def tagBody? (cs : List Char) : Option (List Char × List Char) :=
  let body := cs.takeWhile fun c => c != '[' && c != ']'
  match cs.dropWhile fun c => c != '[' && c != ']' with
  | ']' :: rest => if body.head?.any startsTag then some (body, rest) else none
  | _ => none

theorem tagBody?_length {cs body rest : List Char} (h : tagBody? cs = some (body, rest)) :
    rest.length < cs.length := by
  unfold tagBody? at h
  simp only at h
  split at h
  · next r heq =>
    split at h
    · cases h
      have hd : (cs.dropWhile fun c => c != '[' && c != ']').length ≤ cs.length :=
        (List.dropWhile_suffix _).length_le
      rw [heq] at hd
      exact hd
    · cases h
  · cases h

/-- The tag at the front, with the backslashes before it. -/
def tagAt? (cs : List Char) : Option (Nat × List Char × List Char) :=
  match cs.dropWhile (· == '\\') with
  | '[' :: inside => (tagBody? inside).map fun t => ((cs.takeWhile (· == '\\')).length, t)
  | _ => none

theorem tagAt?_length {cs : List Char} {t : Nat × List Char × List Char} (h : tagAt? cs = some t) :
    t.2.2.length < cs.length := by
  unfold tagAt? at h
  split at h
  · next inside heq =>
    cases hb : tagBody? inside with
    | none => rw [hb] at h; cases h
    | some p =>
      rw [hb] at h
      cases h
      have h1 : p.2.length < inside.length := tagBody?_length hb
      have h2 : (cs.dropWhile (· == '\\')).length ≤ cs.length := (List.dropWhile_suffix _).length_le
      rw [heq] at h2
      exact Nat.lt_of_lt_of_le h1 (Nat.le_of_succ_le h2)
  · cases h

/-- Cuts a message into characters and tags. -/
def pieces : List Char → List Piece
  | [] => []
  | c :: cs =>
    match _h : tagAt? (c :: cs) with
    | some (n, body, rest) => .tag n body :: pieces rest
    | none => .plain c :: pieces cs
termination_by cs => cs.length
decreasing_by
  · exact tagAt?_length ‹_›
  · exact Nat.lt_succ_self _

/-! ## Escaping -/

/-- A piece as text that is shown as it stands. -/
def Piece.escaped : Piece → List Char
  | plain c => [c]
  | tag n body => List.replicate (2 * n + 1) '\\' ++ '[' :: body ++ [']']

/-- Doubles a single backslash at the end. -/
def closeSlash (cs : List Char) : List Char :=
  match cs.reverse with
  | ['\\'] => ['\\', '\\']
  | '\\' :: c :: _ => if c == '\\' then cs else cs ++ ['\\']
  | _ => cs

/-- Text as a message that shows it. -/
def escape (s : String) : String :=
  String.ofList (closeSlash ((pieces s.toList).flatMap Piece.escaped))

/-! ## Showing -/

/-- Why a message cannot be shown: a tag is closed that is not open. -/
inductive MarkupError where
  | notOpen (tag : String) (position : Nat)
  | nothingOpen (position : Nat)
  deriving DecidableEq, Repr

def MarkupError.message : MarkupError → String
  | notOpen tag position =>
    "closing tag '[" ++ tag ++ "]' at position " ++ position.repr ++ " doesn't match any open tag"
  | nothingOpen position => "closing tag '[/]' at position " ++ position.repr ++ " has nothing to close"

/-- The name of a tag, without its parameters. -/
def tagName (body : List Char) : String :=
  String.ofList (body.takeWhile (· != '='))

/-- A name as it is compared. -/
def normalName (s : String) : String :=
  String.ofList ((trim s).toList.map Char.toLower)

/-- The open tags without the last one of a name. -/
def closeTag? (name : String) : List String → Option (List String)
  | [] => none
  | t :: ts => if t == name then some ts else (closeTag? name ts).map (t :: ·)

/-- The open tags, the last one first, after another tag. -/
def openAfter (position : Nat) (body : List Char) (stack : List String) : Except MarkupError (List String) :=
  match body with
  | '/' :: _ =>
    let name := trim (String.ofList ((tagName body).toList.drop 1))
    if name == "" then
      match stack with
      | [] => .error (.nothingOpen position)
      | _ :: ts => .ok ts
    else
      match closeTag? (normalName name) stack with
      | some ts => .ok ts
      | none => .error (.notOpen (String.ofList body) position)
  | _ => .ok (normalName (tagName body) :: stack)

/-- A character that is not shown. -/
def isHidden (c : Char) : Bool :=
  [7, 8, 11, 12, 13].contains c.toNat

/-! ### Pictures -/

/-- Pictures by the text of their codes. -/
abbrev Pictures := List Char → Option (List Char)

/-- Puts pictures in the place of their codes.  A code is a text without white space between two colons; `begun` is
what has been read of a code after its first colon, backwards. -/
def illustrate (pictures : Pictures) : Option (List Char) → List Char → List Char
  | none, [] => []
  | none, c :: cs => if c == ':' then illustrate pictures (some []) cs else c :: illustrate pictures none cs
  | some begun, [] => ':' :: begun.reverse
  | some begun, c :: cs =>
    if c == ':' then
      (pictures begun.reverse).getD (':' :: begun.reverse ++ [':']) ++ illustrate pictures none cs
    else if isSpace c then ':' :: begun.reverse ++ c :: illustrate pictures none cs
    else illustrate pictures (some (c :: begun)) cs

/-! ### Text between tags -/

/-- A stretch of text, or a tag with the number of backslashes before it. -/
inductive Chunk where
  | text (cs : List Char)
  | tag (slashes : Nat) (body : List Char)
  deriving DecidableEq, Repr

/-- Puts the characters between two tags together. -/
def chunks : List Piece → List Chunk
  | [] => []
  | .plain c :: ps =>
    match chunks ps with
    | .text cs :: rest => .text (c :: cs) :: rest
    | rest => .text [c] :: rest
  | .tag n body :: ps => .tag n body :: chunks ps

/-- Takes the backslash before a bracket out, where no tag opens. -/
def unescape : List Char → List Char
  | '\\' :: '[' :: cs => '[' :: unescape cs
  | c :: cs => c :: unescape cs
  | [] => []

/-- What a stretch of text shows. -/
def shownText (pictures : Pictures) (cs : List Char) : List Char :=
  (illustrate pictures none cs).filter fun c => !isHidden c

/-- What chunks show, with the tags that are open before them and the position of the first one. -/
def shownChunks (pictures : Pictures) (position : Nat) (stack : List String) :
    List Chunk → Except MarkupError (List Char)
  | [] => .ok []
  | .text cs :: rest =>
    (shownChunks pictures (position + cs.length) stack rest).map (shownText pictures (unescape cs) ++ ·)
  | .tag n body :: rest => do
    let after := position + n + body.length + 2
    let slashes := List.replicate (n / 2) '\\'
    if n % 2 == 1 then
      let shown ← shownChunks pictures after stack rest
      return slashes ++ shownText pictures ('[' :: body ++ [']']) ++ shown
    else
      let stack ← openAfter (position + n) body stack
      let shown ← shownChunks pictures after stack rest
      return slashes ++ shown

/-- What a message shows where codes stand for pictures. -/
def shownWith (pictures : Pictures) (s : String) : Except MarkupError String :=
  (shownChunks pictures 0 [] (chunks (pieces s.toList))).map String.ofList

/-- What a message shows. -/
def shown (s : String) : Except MarkupError String := shownWith (fun _ => none) s

end Conformance.Markup
