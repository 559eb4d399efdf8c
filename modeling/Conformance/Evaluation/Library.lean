import Conformance.Hierarchy.Creation

/-!
# What modules can import

The modules that a loaded module knows, and the names that are always there.
-/

namespace Conformance.Library

/-- A standard class as a value. -/
def standardClass (name : String) : Value :=
  match Hierarchy.standard.named? name with
  | some c => .type c
  | none => .form "builtins" name

/-- Either result, for two types of values. -/
def result : Value :=
  .applied (.form "typing" "Union")
    [.applied (standardClass "Ok") [.typeVariable "T"], .applied (standardClass "Err") [.typeVariable "E"]]

/-- What annotated modules import. -/
def forAuthors : Namespace :=
  (Marker.all.map fun m => (m.word, Value.native (.marker m))) ++
  [("Concrete", .concrete), ("Ok", standardClass "Ok"), ("Err", standardClass "Err"),
   ("Result", result), ("panic_any", .native .panicAny)]

/-- What the package offers besides, which only other programs use. -/
def forTools : Namespace :=
  ["ConfigError", "Diagnostic", "DiagnosticKind", "Expander", "ExpanderConfig", "ExpansionError",
   "ExpansionResult", "Span", "expand_source", "expand_test_impl", "expand_tested_trait"].map fun n =>
    (n, .form "tested_trait" n)

/-- What generated code calls. -/
def forGenerated : Namespace :=
  forAuthors ++
  [("unwrap", .native .unwrap), ("expect_unit", .native .expectUnit), ("catch_unwind", .native .catchUnwind),
   ("panic_message", .native .panicMessage), ("expect_panic", .native .expectPanic),
   ("check_requirements", .native .checkRequirements), ("Panic", standardClass "Panic"),
   ("UnwrapError", standardClass "UnwrapError"), ("PanicPayloadError", standardClass "PanicPayloadError"),
   ("UnsatisfiedRequirement", standardClass "UnsatisfiedRequirement")]

/-- The forms for annotations, which are known by name only. -/
def forms : List String :=
  ["Annotated Any Callable ClassVar Concatenate Final Literal Optional ParamSpec Tuple Type TypeVarTuple Union",
   "AbstractSet ByteString Container ContextManager Hashable ItemsView Iterable Iterator KeysView Mapping",
   "MappingView MutableMapping MutableSequence MutableSet Sequence Sized ValuesView Awaitable AsyncIterator",
   "AsyncIterable Coroutine Collection AsyncGenerator AsyncContextManager Reversible SupportsAbs SupportsBytes",
   "SupportsComplex SupportsFloat SupportsIndex SupportsInt SupportsRound ChainMap Counter Deque Dict",
   "DefaultDict List OrderedDict Set FrozenSet NamedTuple TypedDict Generator LiteralString Never NoReturn",
   "NotRequired Required Self Text TypeAlias TypeGuard Unpack"].flatMap fun line => line.splitOn " "

/-- The names for annotations. -/
def forAnnotations : Namespace :=
  [("Generic", .type .generic), ("Protocol", .type .protocol), ("TypeVar", .native .typeVariable),
   ("runtime_checkable", .native .runtimeCheckable), ("TYPE_CHECKING", .bool false)] ++
  forms.map fun n => (n, .form "typing" n)

/-- The names for abstract classes. -/
def forAbstract : Namespace :=
  [("ABC", .type .abc), ("ABCMeta", .form "abc" "ABCMeta"), ("abstractmethod", .native (.wrap .isAbstract))]

/-- The names of a module. -/
def contents? : List String → Option Namespace
  | ["tested_trait"] => some (forAuthors ++ forTools ++ [("runtime", .library ["tested_trait", "runtime"])])
  | ["tested_trait", "runtime"] => some forGenerated
  | ["typing"] => some forAnnotations
  | ["abc"] => some forAbstract
  | _ => none

/-- The names that are always there. -/
def always : Namespace :=
  [("print", .native .print), ("staticmethod", .native (.wrap .static)),
   ("classmethod", .native (.wrap .ofClass))]

/-- What a name stands for that a program does not bind. -/
def builtIn? (name : String) : Option Value :=
  match always.lookup name with
  | some v => some v
  | none =>
    match Hierarchy.standard.named? name with
    | some c => if c.home.isNone && name != "NoneType" then some (.type c) else none
    | none => none

end Conformance.Library
