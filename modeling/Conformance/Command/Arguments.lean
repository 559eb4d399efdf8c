import Conformance.Text.Quoted

/-!
# Command lines

The program is called with a command and its arguments.  Options may be shortened as long as they stay unique,
take their value after an equals sign or as the next argument, and may stand before or after the path; after
`--` everything is an argument.
-/

namespace Conformance.Command

open Text

/-- What an option does. -/
inductive Effect where
  | help
  | version
  /-- It stores its value under a name. -/
  | store (field : String)
  deriving DecidableEq, Repr

/-- An option with its spellings. -/
structure Flag where
  spellings : List String
  effect : Effect
  deriving DecidableEq, Repr

/-- Whether the option takes a value. -/
def Flag.takesValue (f : Flag) : Bool :=
  match f.effect with
  | .store _ => true
  | _ => false

/-- An option as messages name it. -/
def Flag.title (f : Flag) : String := "/".intercalate f.spellings

/-- What the arguments that are no options are for. -/
inductive Positional where
  /-- The first one is a command, and everything after it belongs to that command. -/
  | command
  /-- The first one is a path. -/
  | path
  deriving DecidableEq, Repr

/-- The name of a positional argument. -/
def Positional.title : Positional → String
  | command => "command"
  | path => "path"

/-- What a part of the program understands. -/
structure Grammar where
  flags : List Flag
  positional : Positional

/-- The value that stands in the same argument as an option. -/
inductive Attached where
  | none
  /-- After an equals sign. -/
  | equals (value : String)
  /-- Right after a short option. -/
  | direct (value : String)
  deriving DecidableEq, Repr

/-- An argument, as far as it can be told by itself. -/
inductive Word where
  /-- The first `--`. -/
  | separator
  | plain (text : String)
  /-- An option, the spelling that was meant and the value in the same argument; without a flag the option is
  unknown. -/
  | option (flag : Option Flag) (spelling : String) (value : Attached) (text : String)
  deriving Repr

/-- The argument as it was given. -/
def Word.text : Word → String
  | separator => "--"
  | plain s => s
  | option _ _ _ s => s

/-- Whether the word is an option. -/
def Word.isOption : Word → Bool
  | option .. => true
  | _ => false

/-- Why a command line is refused. -/
inductive UsageError where
  | ambiguous (option : String) (candidates : List String)
  | ignoredValue (flag : Flag) (value : String)
  | missingValue (flag : Flag)
  | invalidChoice (given : String) (choices : List String)
  | missingArgument (name : String)
  | unrecognized (words : List String)
  deriving DecidableEq, Repr

/-- The wording of a refusal. -/
def UsageError.message : UsageError → String
  | ambiguous option candidates =>
    "ambiguous option: " ++ option ++ " could match " ++ ", ".intercalate candidates
  | ignoredValue flag value => "argument " ++ flag.title ++ ": ignored explicit argument " ++ quoted value
  | missingValue flag => "argument " ++ flag.title ++ ": expected one argument"
  | invalidChoice given choices =>
    "argument command: invalid choice: " ++ quoted given ++ " (choose from " ++
      ", ".intercalate (choices.map quoted) ++ ")"
  | missingArgument name => "the following arguments are required: " ++ name
  | unrecognized words => "unrecognized arguments: " ++ " ".intercalate words

/-! ## Words -/

/-- Splits at the first equals sign. -/
def splitEquals (s : String) : Option (String × String) :=
  let cs := s.toList
  let front := cs.takeWhile (· != '=')
  match cs.dropWhile (· != '=') with
  | _ :: back => some (String.ofList front, String.ofList back)
  | [] => none

/-- Every spelling of every option. -/
def Grammar.spellings (g : Grammar) : List (String × Flag) :=
  g.flags.flatMap fun f => f.spellings.map fun s => (s, f)

/-- The option with exactly this spelling. -/
def Grammar.flag? (g : Grammar) (s : String) : Option Flag :=
  (g.spellings.find? fun p => p.1 == s).map Prod.snd

/-- The options that an argument could be short for. -/
def Grammar.candidates (g : Grammar) (s : String) : List (Flag × String × Attached) :=
  if "--".isPrefixOf s then
    let (front, value) := match splitEquals s with
      | some (front, value) => (front, Attached.equals value)
      | none => (s, Attached.none)
    (g.spellings.filter fun p => front.isPrefixOf p.1).map fun p => (p.2, p.1, value)
  else
    let short := String.ofList (s.toList.take 2)
    let value := String.ofList (s.toList.drop 2)
    g.spellings.filterMap fun p =>
      if p.1 == short then some (p.2, p.1, .direct value)
      else if s.isPrefixOf p.1 then some (p.2, p.1, .none)
      else none

/-- Whether an argument is a negative number. -/
def isNegativeNumber (s : String) : Bool :=
  match s.toList with
  | '-' :: cs =>
    let whole := cs.takeWhile Char.isDigit
    match cs.dropWhile Char.isDigit with
    | [] => !whole.isEmpty
    | '.' :: fraction => !fraction.isEmpty && fraction.all Char.isDigit
    | _ => false
  | _ => false

/-- Tells an argument by itself. -/
def Grammar.word (g : Grammar) (s : String) : Except UsageError Word :=
  if !"-".isPrefixOf s then .ok (.plain s)
  else
    match g.flag? s with
    | some f => .ok (.option (some f) s .none s)
    | none =>
      if s.length == 1 then .ok (.plain s)
      else
        let exact := (splitEquals s).bind fun (front, value) => (g.flag? front).map fun f => (f, front, value)
        match exact, g.candidates s with
        | some (f, front, value), _ => .ok (.option (some f) front (.equals value) s)
        | none, [(f, spelling, value)] => .ok (.option (some f) spelling value s)
        | none, [] =>
          if isNegativeNumber s || s.toList.contains ' ' then .ok (.plain s) else .ok (.option none s .none s)
        | none, several => .error (.ambiguous s (several.map fun c => c.2.1))

/-- Tells all arguments.  After the first `--` there are no options. -/
def Grammar.words (g : Grammar) : List String → Except UsageError (List Word)
  | [] => .ok []
  | s :: ss =>
    if s == "--" then .ok (.separator :: ss.map Word.plain)
    else do
      let w ← g.word s
      let ws ← g.words ss
      return w :: ws

/-! ## Reading -/

/-- What has been read of a command line. -/
structure Parse where
  /-- The arguments of the positional one, once it has been read. -/
  positional : Option (List String) := none
  values : List (String × String) := []
  extras : List String := []

/-- How reading can end early: with an answer for the user, or a refusal. -/
inductive Stop where
  | help
  | version
  | refused (e : UsageError)
  deriving DecidableEq, Repr

/-- Splits off the words for the positional argument, if they stand here. -/
def takePositional? (p : Positional) (words : List Word) : Option (List String × List Word) :=
  let isSeparator (w : Word) : Bool := match w with
    | .separator => true
    | _ => false
  match words.dropWhile isSeparator with
  | .plain s :: rest =>
    match p with
    | .command => some ((words.takeWhile isSeparator).map Word.text ++ s :: rest.map Word.text, [])
    | .path => some ([s], rest.dropWhile isSeparator)
  | _ => none

/-- Short options can be written together, since none of them takes a value.  Gives the options from `f` on, and
the first part that is no option. -/
def cluster (g : Grammar) (f : Flag) : List Char → Except Stop (List Flag × Option String)
  | [] => .ok ([f], none)
  | c :: cs =>
    if c == '-' then .error (.refused (.ignoredValue f (String.ofList (c :: cs))))
    else
      match g.flag? (String.ofList ['-', c]), cs with
      | none, _ => .ok ([f], some (String.ofList ('-' :: c :: cs)))
      | some next, '=' :: value => .error (.refused (.ignoredValue next (String.ofList value)))
      | some next, cs => do
        let (fs, extra) ← cluster g next cs
        return (f :: fs, extra)

/-- Carries out an option that takes no value. -/
def perform (f : Flag) : Except Stop Unit :=
  match f.effect with
  | .help => .error .help
  | .version => .error .version
  | .store _ => .ok ()

/-- Stores the value of an option. -/
def Parse.store (p : Parse) (f : Flag) (value : String) : Parse :=
  match f.effect with
  | .store field => { p with values := p.values ++ [(field, value)] }
  | _ => p

/-- Reads an option, with the words after it. -/
def takeOption (g : Grammar) (p : Parse) (flag : Option Flag) (value : Attached) (text : String)
    (rest : List Word) : Except Stop (Parse × List Word) :=
  match flag, value with
  | none, _ => .ok ({ p with extras := p.extras ++ [text] }, rest)
  | some f, .equals v =>
    if f.takesValue then .ok (p.store f v, rest) else .error (.refused (.ignoredValue f v))
  | some f, .direct v =>
    if f.takesValue then .ok (p.store f v, rest)
    else do
      let (fs, extra) ← cluster g f v.toList
      fs.forM perform
      return ({ p with extras := p.extras ++ extra.toList }, rest)
  | some f, .none =>
    if f.takesValue then
      match rest with
      | .plain s :: rest => .ok (p.store f s, rest)
      | _ => .error (.refused (.missingValue f))
    else do
      perform f
      return (p, rest)

/-- Reads the words.  What stands before an option goes to the positional argument if that is still open. -/
def readWords (g : Grammar) : Nat → Parse → List Word → Except Stop Parse
  | 0, p, _ => .ok p
  | fuel + 1, p, words =>
    let attempt := if p.positional.isNone then takePositional? g.positional words else none
    if words.any Word.isOption then
      match words with
      | .option flag _ value text :: rest => do
        let (p, rest) ← takeOption g p flag value text rest
        readWords g fuel p rest
      | _ =>
        match attempt with
        | some (args, rest) => readWords g fuel { p with positional := some args } rest
        | none =>
          let front := words.takeWhile fun w => !w.isOption
          readWords g fuel { p with extras := p.extras ++ front.map Word.text }
            (words.dropWhile fun w => !w.isOption)
    else
      match attempt with
      | some (args, rest) => .ok { p with positional := some args, extras := p.extras ++ rest.map Word.text }
      | none => .ok { p with extras := p.extras ++ words.map Word.text }

/-- Reads a command line. -/
def Grammar.read (g : Grammar) (args : List String) : Except Stop Parse := do
  let words ← (g.words args).mapError Stop.refused
  readWords g (words.length + 1) {} words

/-! ## The program's command line -/

def helpFlag : Flag := { spellings := ["-h", "--help"], effect := .help }
def versionFlag : Flag := { spellings := ["--version"], effect := .version }
def prefixFlag : Flag := { spellings := ["--prefix"], effect := .store "prefix" }
def levelFlag : Flag := { spellings := ["--log-level"], effect := .store "level" }
def outFlag : Flag := { spellings := ["--out"], effect := .store "out" }

/-- The two commands. -/
inductive Verb where
  | expand
  | check
  deriving DecidableEq, Repr

def Verb.word : Verb → String
  | expand => "expand"
  | check => "check"

def Verb.all : List Verb := [.expand, .check]

/-- What is understood before a command. -/
def mainGrammar : Grammar := { flags := [helpFlag, versionFlag], positional := .command }

/-- What is understood after a command. -/
def Verb.grammar : Verb → Grammar
  | expand => { flags := [helpFlag, prefixFlag, levelFlag, outFlag], positional := .path }
  | check => { flags := [helpFlag, prefixFlag, levelFlag], positional := .path }

/-- What the user asks for. -/
structure Request where
  verb : Verb
  path : String
  out : Option String := none
  testPrefix : Option String := none
  level : Option String := none
  deriving DecidableEq, Repr

/-- How a command line that asks for nothing is answered; `verb` is the command it was read for. -/
structure Answer where
  verb : Option Verb
  stop : Stop
  deriving DecidableEq, Repr

/-- The last value that was stored under a name. -/
def Parse.value? (p : Parse) (field : String) : Option String :=
  (p.values.reverse.find? fun v => v.1 == field).map Prod.snd

/-- Reads the arguments of a command, with the arguments it does not know. -/
def readVerb (v : Verb) (args : List String) : Except Answer (Request × List String) := do
  let p ← (v.grammar.read args).mapError fun s => ⟨some v, s⟩
  match p.positional with
  | some [path] =>
    return (
      { verb := v, path, out := p.value? "out", testPrefix := p.value? "prefix", level := p.value? "level" },
      p.extras)
  | _ => throw ⟨some v, .refused (.missingArgument "path")⟩

/-- Reads the command and its arguments. -/
def readCommand (args : List String) : Except Answer (Request × List String) :=
  match args with
  | [] => .error ⟨none, .refused (.missingArgument "command")⟩
  | c :: rest =>
    match Verb.all.find? fun v => v.word == c with
    | some v => readVerb v rest
    | none => .error ⟨none, .refused (.invalidChoice c (Verb.all.map Verb.word))⟩

/-- Reads the options before the command up to the command, and carries it out as soon as it is there, since
help for a command comes before complaints about what follows. -/
def readRequest (argv : List String) : Except Answer Request := do
  let p ← (mainGrammar.read argv).mapError fun s => ⟨none, s⟩
  let (request, unknown) ← readCommand (p.positional.getD [])
  match p.extras ++ unknown with
  | [] => return request
  | extras => throw ⟨none, .refused (.unrecognized extras)⟩

end Conformance.Command
