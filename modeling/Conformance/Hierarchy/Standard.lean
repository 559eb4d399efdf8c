import Conformance.Hierarchy.Basic

/-!
# Standard classes

The classes that are there before a module defines its own: the built-in classes of data, the bases of generic
classes, protocols and abstract classes, the two classes of results, and the kinds of errors.
-/

namespace Conformance.Hierarchy

/-- A standard class: where it comes from, its one base and the names of its attributes. -/
structure StandardClass where
  name : String
  home : Option String := none
  parent : Option String := some "object"
  /-- Lines of names. -/
  names : List String := []
  /-- Whether its instances have a layout of their own. -/
  ownLayout : Bool := false
  tracksAbstract : Bool := false
  parameters : List String := []
  /-- What it says about being a protocol. -/
  protocol : Option Bool := none
  closed : Bool := false

/-- The classes of data, and the bases of special classes. -/
def dataClasses : List StandardClass :=
  [{ name := "object",
      parent := none,
      names := [
        "__new__ __repr__ __hash__ __str__ __getattribute__ __setattr__ __delattr__ __lt__ __le__",
        "__eq__ __ne__ __gt__ __ge__ __init__ __reduce_ex__ __reduce__ __getstate__ __subclasshook__",
        "__init_subclass__ __format__ __sizeof__ __dir__ __class__ __doc__"],
      ownLayout := true },
   { name := "Generic", home := some "typing",
      names := ["__module__ __doc__ __slots__ __class_getitem__ __init_subclass__"],
      protocol := some false },
   { name := "Protocol", home := some "typing", parent := some "Generic",
      names := [
        "__module__ __doc__ __slots__ _is_runtime_protocol __init_subclass__ __parameters__",
        "__abstractmethods__ _abc_impl"],
      tracksAbstract := true, protocol := some true },
   { name := "ABC", home := some "abc",
      names := ["__module__ __doc__ __slots__ __abstractmethods__ _abc_impl"],
      tracksAbstract := true },
   { name := "int",
      names := [
        "__new__ __repr__ __hash__ __getattribute__ __lt__ __le__ __eq__ __ne__ __gt__ __ge__ __add__",
        "__radd__ __sub__ __rsub__ __mul__ __rmul__ __mod__ __rmod__ __divmod__ __rdivmod__ __pow__",
        "__rpow__ __neg__ __pos__ __abs__ __bool__ __invert__ __lshift__ __rlshift__ __rshift__",
        "__rrshift__ __and__ __rand__ __xor__ __rxor__ __or__ __ror__ __int__ __float__ __floordiv__",
        "__rfloordiv__ __truediv__ __rtruediv__ __index__ conjugate bit_length bit_count to_bytes",
        "from_bytes as_integer_ratio __trunc__ __floor__ __ceil__ __round__ __getnewargs__ __format__",
        "__sizeof__ real imag numerator denominator __doc__"],
      ownLayout := true },
   { name := "str",
      names := [
        "__new__ __repr__ __hash__ __str__ __getattribute__ __lt__ __le__ __eq__ __ne__ __gt__ __ge__",
        "__iter__ __mod__ __rmod__ __len__ __getitem__ __add__ __mul__ __rmul__ __contains__ encode",
        "replace split rsplit join capitalize casefold title center count expandtabs find partition",
        "index ljust lower lstrip rfind rindex rjust rstrip rpartition splitlines strip swapcase",
        "translate upper startswith endswith removeprefix removesuffix isascii islower isupper",
        "istitle isspace isdecimal isdigit isnumeric isalpha isalnum isidentifier isprintable zfill",
        "format format_map __format__ maketrans __sizeof__ __getnewargs__ __doc__"],
      ownLayout := true },
   { name := "list",
      names := [
        "__new__ __repr__ __hash__ __getattribute__ __lt__ __le__ __eq__ __ne__ __gt__ __ge__",
        "__iter__ __init__ __len__ __getitem__ __setitem__ __delitem__ __add__ __mul__ __rmul__",
        "__contains__ __iadd__ __imul__ __reversed__ __sizeof__ clear copy append insert extend pop",
        "remove index count reverse sort __class_getitem__ __doc__"],
      ownLayout := true },
   { name := "dict",
      names := [
        "__new__ __repr__ __hash__ __getattribute__ __lt__ __le__ __eq__ __ne__ __gt__ __ge__",
        "__iter__ __init__ __or__ __ror__ __ior__ __len__ __getitem__ __setitem__ __delitem__",
        "__contains__ __sizeof__ get setdefault pop popitem keys items values update fromkeys clear",
        "copy __reversed__ __class_getitem__ __doc__"],
      ownLayout := true },
   { name := "tuple",
      names := [
        "__new__ __repr__ __hash__ __getattribute__ __lt__ __le__ __eq__ __ne__ __gt__ __ge__",
        "__iter__ __len__ __getitem__ __add__ __mul__ __rmul__ __contains__ __getnewargs__ index",
        "count __class_getitem__ __doc__"],
      ownLayout := true },
   { name := "bytes",
      names := [
        "__new__ __repr__ __hash__ __str__ __getattribute__ __lt__ __le__ __eq__ __ne__ __gt__ __ge__",
        "__iter__ __mod__ __rmod__ __len__ __getitem__ __add__ __mul__ __rmul__ __contains__",
        "__getnewargs__ __bytes__ capitalize center count decode endswith expandtabs find fromhex hex",
        "index isalnum isalpha isascii isdigit islower isspace istitle isupper join ljust lower",
        "lstrip maketrans partition replace removeprefix removesuffix rfind rindex rjust rpartition",
        "rsplit rstrip split splitlines startswith strip swapcase title translate upper zfill __doc__"],
      ownLayout := true },
   { name := "set",
      names := [
        "__new__ __repr__ __hash__ __getattribute__ __lt__ __le__ __eq__ __ne__ __gt__ __ge__",
        "__iter__ __init__ __sub__ __rsub__ __and__ __rand__ __xor__ __rxor__ __or__ __ror__ __isub__",
        "__iand__ __ixor__ __ior__ __len__ __contains__ add clear copy discard difference",
        "difference_update intersection intersection_update isdisjoint issubset issuperset pop",
        "__reduce__ remove __sizeof__ symmetric_difference symmetric_difference_update union update",
        "__class_getitem__ __doc__"],
      ownLayout := true },
   { name := "frozenset",
      names := [
        "__new__ __repr__ __hash__ __getattribute__ __lt__ __le__ __eq__ __ne__ __gt__ __ge__",
        "__iter__ __sub__ __rsub__ __and__ __rand__ __xor__ __rxor__ __or__ __ror__ __len__",
        "__contains__ copy difference intersection isdisjoint issubset issuperset __reduce__",
        "__sizeof__ symmetric_difference union __class_getitem__ __doc__"],
      ownLayout := true },
   { name := "float",
      names := [
        "__new__ __repr__ __hash__ __getattribute__ __lt__ __le__ __eq__ __ne__ __gt__ __ge__ __add__",
        "__radd__ __sub__ __rsub__ __mul__ __rmul__ __mod__ __rmod__ __divmod__ __rdivmod__ __pow__",
        "__rpow__ __neg__ __pos__ __abs__ __bool__ __int__ __float__ __floordiv__ __rfloordiv__",
        "__truediv__ __rtruediv__ conjugate __trunc__ __floor__ __ceil__ __round__ as_integer_ratio",
        "fromhex hex is_integer __getnewargs__ __getformat__ __format__ real imag __doc__"],
      ownLayout := true },
   { name := "complex",
      names := [
        "__new__ __repr__ __hash__ __getattribute__ __lt__ __le__ __eq__ __ne__ __gt__ __ge__ __add__",
        "__radd__ __sub__ __rsub__ __mul__ __rmul__ __pow__ __rpow__ __neg__ __pos__ __abs__ __bool__",
        "__truediv__ __rtruediv__ conjugate __complex__ __getnewargs__ __format__ real imag __doc__"],
      ownLayout := true },
   { name := "bool",
      parent := some "int",
      names := ["__new__ __repr__ __and__ __rand__ __xor__ __rxor__ __or__ __ror__ __doc__"],
      closed := true },
   { name := "NoneType",
      names := ["__new__ __repr__ __bool__ __doc__"],
      closed := true },
   { name := "type",
      names := [
        "__new__ __repr__ __call__ __getattribute__ __setattr__ __delattr__ __init__ __or__ __ror__",
        "mro __subclasses__ __prepare__ __instancecheck__ __subclasscheck__ __dir__ __sizeof__",
        "__basicsize__ __itemsize__ __flags__ __weakrefoffset__ __base__ __dictoffset__ __mro__",
        "__name__ __qualname__ __bases__ __module__ __abstractmethods__ __dict__ __doc__",
        "__text_signature__"],
      ownLayout := true },
   { name := "Ok", home := some "tested_trait.runtime", parent := some "Generic",
      names := [
        "__module__ __annotations__ __doc__ value __dict__ __weakref__ __orig_bases__ __parameters__",
        "__dataclass_params__ __dataclass_fields__ __init__ __repr__ __eq__ __setattr__ __delattr__",
        "__hash__ __match_args__"],
      parameters := ["T"] },
   { name := "Err", home := some "tested_trait.runtime", parent := some "Generic",
      names := [
        "__module__ __annotations__ __doc__ error __dict__ __weakref__ __orig_bases__ __parameters__",
        "__dataclass_params__ __dataclass_fields__ __init__ __repr__ __eq__ __setattr__ __delattr__",
        "__hash__ __match_args__"],
      parameters := ["E"] }]

/-- The names of the attributes that a kind of errors adds. -/
def errorNames : List (String × String) :=
  [("SystemExit", "code"), ("AttributeError", "name obj"), ("ImportError", "msg name path"),
   ("NameError", "name"), ("OSError", "errno strerror filename filename2 characters_written"), ("StopIteration", "value"),
   ("SyntaxError", "msg filename lineno offset text end_lineno end_offset print_file_and_line"),
   ("Panic", "payload"), ("UnwrapError", "error"), ("UnsatisfiedRequirement", "implementer requirement")]

/-- The kinds of errors that are not built in. -/
def ownErrors : List String := ["Panic", "UnwrapError", "PanicPayloadError", "UnsatisfiedRequirement"]

/-- The kinds of errors as classes. -/
def errorClasses : List StandardClass :=
  { name := "BaseException",
    names := [
        "__new__ __repr__ __str__ __getattribute__ __setattr__ __delattr__ __init__ __reduce__",
        "__setstate__ with_traceback add_note __suppress_context__ __dict__ args __traceback__",
        "__context__ __cause__ __doc__"],
    ownLayout := true } ::
  ErrorKind.parents.map fun (name, parent) =>
    { name, parent := some parent,
      home := if ownErrors.contains name then some "tested_trait.runtime" else none,
      names := "__init__ __doc__" :: (errorNames.lookup name).toList,
      ownLayout := !ownErrors.contains name && (errorNames.lookup name).isSome }

/-- An attribute of which only the name is known. -/
def unknownMember : Value := .form "builtins" "member"

/-- Adds a standard class whose base is already there. -/
def addStandard (h : Hierarchy) (s : StandardClass) : Hierarchy :=
  let ref : ClassRef := { index := h.classes.length, home := s.home, name := s.name }
  let parent := s.parent.bind fun p => (h.named? p).bind h.class?
  let flags : Namespace := (s.protocol.map fun b => (protocolFlag, Value.bool b)).toList
  h.add
    { ref,
      order := ref :: (parent.map Class.order).getD [],
      body := (s.names.flatMap fun line => line.splitOn " ").map (fun n => (n, unknownMember)) ++ flags,
      tracksAbstract := s.tracksAbstract,
      parameters := s.parameters,
      layout := if s.ownLayout then ref else (parent.map Class.layout).getD ref,
      closed := s.closed }

/-- The hierarchy of the standard classes. -/
def standard : Hierarchy :=
  (dataClasses ++ errorClasses).foldl addStandard ⟨[]⟩

end Conformance.Hierarchy
