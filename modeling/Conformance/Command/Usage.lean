import Conformance.Command.Arguments

/-!
# Usage and help

What the program says about itself, on lines of at most 80 characters.
-/

namespace Conformance.Command

/-- The name of the program. -/
def programName : String := "tested-trait"

/-- The version of the program. -/
def programVersion : String := "0.1.0"

/-- The program as it is called, with a command or without. -/
def calledAs : Option Verb → String
  | none => programName
  | some v => programName ++ " " ++ v.word

/-- The lines that show how the program is called. -/
def usage : Option Verb → List String
  | none => ["usage: tested-trait [-h] [--version] \x7bexpand,check\x7d ..."]
  | some .expand =>
    ["usage: tested-trait expand [-h] [--prefix PREFIX] [--log-level LOG_LEVEL]",
     "                           [--out OUT]",
     "                           path"]
  | some .check => ["usage: tested-trait check [-h] [--prefix PREFIX] [--log-level LOG_LEVEL] path"]

/-- The options that both commands have. -/
def sharedOptions : List String :=
  ["options:",
   "  -h, --help            show this help message and exit",
   "  --prefix PREFIX       Discovery prefix for generated tests (default: from",
   "                        toml)",
   "  --log-level LOG_LEVEL",
   "                        Logger level, e.g. DEBUG (default: from toml)"]

/-- The path that both commands take. -/
def sharedArguments : List String :=
  ["positional arguments:",
   "  path                  Input source file or directory"]

/-- The lines of the help. -/
def help : Option Verb → List String
  | none => usage none ++ ["",
      "tested-trait: interfaces that carry their own conformance tests",
      "",
      "positional arguments:",
      "  \x7bexpand,check\x7d",
      "    expand        Expand annotated classes in a file or directory",
      "    check         Report expansion diagnostics without writing",
      "",
      "options:",
      "  -h, --help      show this help message and exit",
      "  --version       show program's version number and exit"]
  | some .expand => usage (some .expand) ++ [""] ++ sharedArguments ++ [""] ++ sharedOptions ++
      ["  --out OUT             Output destination (file or dir); stdout for a file if",
       "                        omitted"]
  | some .check => usage (some .check) ++ [""] ++ sharedArguments ++ [""] ++ sharedOptions

/-- What an answer prints, to the standard output and to the error output, and the code the program ends
with. -/
structure Reply where
  stdout : String := ""
  stderr : String := ""
  exit : Nat
  deriving DecidableEq, Repr

/-- Lines as text. -/
def unlines (lines : List String) : String :=
  String.join (lines.map (· ++ "\n"))

/-- Answers a command line that asks for nothing. -/
def Answer.reply (a : Answer) : Reply :=
  match a.stop with
  | .help => { stdout := unlines (help a.verb), exit := 0 }
  | .version => { stdout := programName ++ " " ++ programVersion ++ "\n", exit := 0 }
  | .refused e =>
    { stderr := unlines (usage a.verb ++ [calledAs a.verb ++ ": error: " ++ e.message]), exit := 2 }

end Conformance.Command
