import Conformance.Names
import Conformance.Value.Basic

/-!
# Class hierarchies

Every class has an order: itself, then the classes it derives from, in which attributes are looked up.  The first
class in that order whose body binds a name decides what the name stands for.
-/

namespace Conformance

/-- A class. -/
structure Hierarchy.Class where
  ref : ClassRef
  /-- The classes in which attributes are looked up, itself first. -/
  order : List ClassRef
  /-- What its body binds. -/
  body : Namespace := []
  /-- The names its body annotates. -/
  hints : List String := []
  /-- Whether it keeps track of functions without a body of their own. -/
  tracksAbstract : Bool := false
  /-- The functions that a derived class still has to give a body. -/
  unfinished : List String := []
  /-- The type variables it is generic over. -/
  parameters : List String := []
  /-- The built-in class that decides how its instances are laid out. -/
  layout : ClassRef
  /-- Whether no class can derive from it. -/
  closed : Bool := false
  deriving Inhabited

/-- The classes of a program; a reference is a place among them. -/
structure Hierarchy where
  classes : List Hierarchy.Class
  deriving Inhabited

namespace ClassRef

/-- The root of every hierarchy, and the classes of classes with type variables, protocols and abstract
classes. -/
def object : ClassRef := { index := 0, name := "object" }
def generic : ClassRef := { index := 1, home := some "typing", name := "Generic" }
def protocol : ClassRef := { index := 2, home := some "typing", name := "Protocol" }
def abc : ClassRef := { index := 3, home := some "abc", name := "ABC" }

end ClassRef

namespace Hierarchy

/-- The class a reference stands for. -/
def class? (h : Hierarchy) (c : ClassRef) : Option Class := h.classes[c.index]?

/-- The order of a class. -/
def order (h : Hierarchy) (c : ClassRef) : List ClassRef :=
  ((h.class? c).map Class.order).getD []

/-- What the body of a class binds. -/
def body (h : Hierarchy) (c : ClassRef) : Namespace :=
  ((h.class? c).map Class.body).getD []

/-- The names the body of a class annotates. -/
def hints (h : Hierarchy) (c : ClassRef) : List String :=
  ((h.class? c).map Class.hints).getD []

/-- Whether a class derives from another one or is that class. -/
def derives (h : Hierarchy) (c d : ClassRef) : Bool :=
  (h.order c).contains d

/-- What a name stands for in a class. -/
def lookup? (h : Hierarchy) (c : ClassRef) (name : String) : Option Value :=
  (h.order c).findSome? fun k => (h.body k).lookup name

/-- A class with a name that is built in or always imported. -/
def named? (h : Hierarchy) (name : String) : Option ClassRef :=
  (h.classes.find? fun c => c.ref.name == name).map Class.ref

/-- The hierarchy with one more class. -/
def add (h : Hierarchy) (c : Class) : Hierarchy :=
  { h with classes := h.classes ++ [c] }

/-! ## Attributes -/

/-- The member by which a class says whether it is a protocol. -/
def protocolFlag : String := "_is_protocol"

/-- Whether a class is a protocol. -/
def isProtocol (h : Hierarchy) (c : ClassRef) : Bool :=
  (h.lookup? c protocolFlag).any Value.truth

/-- The attributes that every class has because it is a class. -/
def classNames : List String :=
  ["__call__", "__or__", "__ror__", "mro", "__subclasses__", "__prepare__", "__instancecheck__",
   "__subclasscheck__", "__basicsize__", "__itemsize__", "__flags__", "__weakrefoffset__", "__base__",
   "__dictoffset__", "__mro__", "__name__", "__qualname__", "__bases__", "__module__", "__dict__", "__doc__",
   "__text_signature__"]

/-- The attributes of a class that keeps track of abstract functions. -/
def trackingNames : List String :=
  ["register", "_dump_registry", "_abc_registry_clear", "_abc_caches_clear"]

/-- Whether a class has an attribute: in its order, or because it is a class. -/
def classHas (h : Hierarchy) (c : ClassRef) (name : String) : Bool :=
  (h.lookup? c name).isSome || classNames.contains name ||
    ((h.class? c).any Class.tracksAbstract && trackingNames.contains name)

/-- Whether a value has an attribute. -/
def has (h : Hierarchy) (v : Value) (name : String) : Bool :=
  match v with
  | .type c => h.classHas c name
  | .applied (.type c) _ =>
    if isSpecial name then
      ["__origin__", "__args__", "__parameters__", "__call__", "__getitem__", "__mro_entries__", "__name__",
        "__qualname__", "__dict__", "__module__"].contains name || (h.lookup? .object name).isSome
    else h.classHas c name
  | .instanceOf c => (h.lookup? c name).isSome
  | .object _ attributes => (attributes.lookup name).isSome || (h.lookup? .object name).isSome
  | .textOf _ _ => lookupNamed "str"
  | v => lookupNamed v.typeName
where
  /-- Whether instances of a class with a name have the attribute. -/
  lookupNamed (className : String) : Bool :=
    (h.lookup? ((h.named? className).getD .object) name).isSome

/-- Whether functions of a class still have no body. -/
def isAbstract (h : Hierarchy) (v : Value) : Bool :=
  match v with
  | .type c => (h.class? c).any fun k => !k.unfinished.isEmpty
  | _ => false

end Hierarchy

end Conformance
