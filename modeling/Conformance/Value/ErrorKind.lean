/-!
# Kinds of errors

Errors are sorted into kinds, each of which derives from another one up to `BaseException`.  Those that derive
from `Exception` are ordinary errors and can be captured; the others end a run.
-/

namespace Conformance

/-- A kind of errors, by its name. -/
structure ErrorKind where
  name : String
  deriving DecidableEq, Repr, Inhabited

namespace ErrorKind

/-- The kinds with the kind each directly derives from. -/
def parents : List (String × String) :=
  [("Exception", "BaseException"), ("GeneratorExit", "BaseException"), ("KeyboardInterrupt", "BaseException"),
   ("SystemExit", "BaseException"),
   ("ArithmeticError", "Exception"), ("AssertionError", "Exception"), ("AttributeError", "Exception"),
   ("BufferError", "Exception"), ("EOFError", "Exception"), ("ImportError", "Exception"),
   ("LookupError", "Exception"), ("MemoryError", "Exception"), ("NameError", "Exception"),
   ("OSError", "Exception"), ("ReferenceError", "Exception"), ("RuntimeError", "Exception"),
   ("StopAsyncIteration", "Exception"), ("StopIteration", "Exception"), ("SyntaxError", "Exception"),
   ("SystemError", "Exception"), ("TypeError", "Exception"), ("ValueError", "Exception"),
   ("Warning", "Exception"), ("Panic", "Exception"),
   ("FloatingPointError", "ArithmeticError"), ("OverflowError", "ArithmeticError"),
   ("ZeroDivisionError", "ArithmeticError"),
   ("BytesWarning", "Warning"), ("DeprecationWarning", "Warning"), ("EncodingWarning", "Warning"),
   ("FutureWarning", "Warning"), ("ImportWarning", "Warning"), ("PendingDeprecationWarning", "Warning"),
   ("ResourceWarning", "Warning"), ("RuntimeWarning", "Warning"), ("SyntaxWarning", "Warning"),
   ("UnicodeWarning", "Warning"), ("UserWarning", "Warning"),
   ("BlockingIOError", "OSError"), ("ChildProcessError", "OSError"), ("ConnectionError", "OSError"),
   ("FileExistsError", "OSError"), ("FileNotFoundError", "OSError"), ("InterruptedError", "OSError"),
   ("IsADirectoryError", "OSError"), ("NotADirectoryError", "OSError"), ("PermissionError", "OSError"),
   ("ProcessLookupError", "OSError"), ("TimeoutError", "OSError"),
   ("BrokenPipeError", "ConnectionError"), ("ConnectionAbortedError", "ConnectionError"),
   ("ConnectionRefusedError", "ConnectionError"), ("ConnectionResetError", "ConnectionError"),
   ("IndentationError", "SyntaxError"), ("TabError", "IndentationError"),
   ("IndexError", "LookupError"), ("KeyError", "LookupError"),
   ("ModuleNotFoundError", "ImportError"),
   ("NotImplementedError", "RuntimeError"), ("RecursionError", "RuntimeError"),
   ("UnboundLocalError", "NameError"), ("UnicodeError", "ValueError"),
   ("UnwrapError", "AssertionError"),
   ("PanicPayloadError", "TypeError"), ("UnsatisfiedRequirement", "TypeError")]

/-- The kind another one directly derives from. -/
def parent? (k : ErrorKind) : Option ErrorKind :=
  (parents.lookup k.name).map ErrorKind.mk

/-- The kinds above one, nearest first, as far as `n` steps go. -/
def above : Nat → ErrorKind → List ErrorKind
  | 0, _ => []
  | n + 1, k =>
    match k.parent? with
    | some p => p :: above n p
    | none => []

/-- A kind and the kinds it derives from, nearest first.  No chain is longer than the table. -/
def ancestors (k : ErrorKind) : List ErrorKind :=
  k :: above parents.length k

/-- Whether the kind is the other one or derives from it. -/
def derivesFrom (k other : ErrorKind) : Bool :=
  k.ancestors.contains other

def base : ErrorKind := ⟨"BaseException"⟩
def ordinary : ErrorKind := ⟨"Exception"⟩
def assertion : ErrorKind := ⟨"AssertionError"⟩
def type : ErrorKind := ⟨"TypeError"⟩
def name_ : ErrorKind := ⟨"NameError"⟩
/-- A name of a function was used before it was bound. -/
def unboundLocal : ErrorKind := ⟨"UnboundLocalError"⟩
def member : ErrorKind := ⟨"AttributeError"⟩
def importing : ErrorKind := ⟨"ImportError"⟩
def moduleNotFound : ErrorKind := ⟨"ModuleNotFoundError"⟩
def runtime : ErrorKind := ⟨"RuntimeError"⟩
def recursion : ErrorKind := ⟨"RecursionError"⟩
def value : ErrorKind := ⟨"ValueError"⟩
def key : ErrorKind := ⟨"KeyError"⟩
/-- What a feature outside the supported part of the language raises. -/
def unsupported : ErrorKind := ⟨"NotImplementedError"⟩
/-- A result that stands for a failure was unwrapped. -/
def unwrap : ErrorKind := ⟨"UnwrapError"⟩
/-- An error that carries any value. -/
def panic : ErrorKind := ⟨"Panic"⟩
/-- The value an error carries is not text. -/
def panicPayload : ErrorKind := ⟨"PanicPayloadError"⟩
/-- A type does not meet a requirement. -/
def unsatisfied : ErrorKind := ⟨"UnsatisfiedRequirement"⟩

/-- Whether errors of the kind can be captured. -/
def isOrdinary (k : ErrorKind) : Bool :=
  k.derivesFrom ordinary

end ErrorKind

end Conformance
