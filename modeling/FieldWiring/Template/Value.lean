import FieldWiring.Text.Numeral
import FieldWiring.Text.Quoted

/-!
# Values in templates

What a name in a template can stand for: texts and lists of them, records, the loops in which the
name is used, classes and functions. Every value is of a class, and a value has the functions of its
class as members.

Model of what the names and members in the packaged templates' language stand for.

Results:
* `hasMethod_of_mem`: some functions are members of every value.
-/

namespace FieldWiring.Template

/-! ## Classes -/

/-- A class of values, with the module that holds it. -/
structure Class where
  home : String := "builtins"
  name : String
deriving DecidableEq, Repr

namespace Class

def nothing : Class := { name := "NoneType" }
def flag : Class := { name := "bool" }
def number : Class := { name := "int" }
def text : Class := { name := "str" }
def list : Class := { name := "list" }
def pair : Class := { name := "tuple" }
def dict : Class := { name := "dict" }
def range : Class := { name := "range" }
def type : Class := { name := "type" }
def builtin : Class := { name := "builtin_function_or_method" }
def boundMethod : Class := { name := "method" }
def descriptor : Class := { name := "method_descriptor" }
def function : Class := { name := "function" }
def applied : Class := { home := "types", name := "GenericAlias" }
def cycler : Class := { home := "jinja2.utils", name := "Cycler" }
def joiner : Class := { home := "jinja2.utils", name := "Joiner" }
def namespaceObject : Class := { home := "jinja2.utils", name := "Namespace" }
def loop : Class := { home := "jinja2.runtime", name := "LoopContext" }
def template : Class := { home := "jinja2.runtime", name := "TemplateReference" }
def missing : Class := { home := "jinja2.runtime", name := "Undefined" }

/-- The full name of a class. -/
def title (c : Class) : String := if c.home = "builtins" then c.name else c.home ++ "." ++ c.name

/-- A value of a class in complaints. -/
def described (c : Class) : String := if c = nothing then "None" else c.title ++ " object"

/-- Functions that all values have. -/
def commonMethods : List String :=
  ["__delattr__", "__dir__", "__eq__", "__format__", "__ge__", "__getattribute__", "__getstate__",
    "__gt__", "__hash__", "__init__", "__init_subclass__", "__le__", "__lt__", "__ne__", "__new__",
    "__reduce__", "__reduce_ex__", "__repr__", "__setattr__", "__sizeof__", "__str__",
    "__subclasshook__"]

/-- Functions of texts. -/
def textMethods : List String :=
  ["capitalize", "casefold", "center", "count", "encode", "endswith", "expandtabs", "find",
    "format", "format_map", "index", "isalnum", "isalpha", "isascii", "isdecimal", "isdigit",
    "isidentifier", "islower", "isnumeric", "isprintable", "isspace", "istitle", "isupper", "join",
    "ljust", "lower", "lstrip", "maketrans", "partition", "removeprefix", "removesuffix", "replace",
    "rfind", "rindex", "rjust", "rpartition", "rsplit", "rstrip", "split", "splitlines",
    "startswith", "strip", "swapcase", "title", "translate", "upper", "zfill", "__add__",
    "__contains__", "__getitem__", "__getnewargs__", "__iter__", "__len__", "__mod__", "__mul__",
    "__rmod__", "__rmul__"]

/-- Functions of lists. -/
def listMethods : List String :=
  ["append", "clear", "copy", "count", "extend", "index", "insert", "pop", "remove", "reverse",
    "sort", "__add__", "__class_getitem__", "__contains__", "__delitem__",
    "__getitem__", "__iadd__", "__imul__", "__iter__", "__len__", "__mul__", "__reversed__",
    "__rmul__", "__setitem__"]

/-- Functions of pairs. -/
def pairMethods : List String :=
  ["count", "index", "__add__", "__class_getitem__", "__contains__", "__getitem__",
    "__getnewargs__", "__iter__", "__len__", "__mul__", "__rmul__"]

/-- Functions of numbers and truth values. -/
def numberMethods : List String :=
  ["as_integer_ratio", "bit_count", "bit_length", "conjugate", "from_bytes", "to_bytes", "__abs__",
    "__add__", "__and__", "__bool__", "__ceil__", "__divmod__", "__float__", "__floor__",
    "__floordiv__", "__getnewargs__", "__index__", "__int__", "__invert__", "__lshift__", "__mod__",
    "__mul__", "__neg__", "__or__", "__pos__", "__pow__", "__radd__", "__rand__", "__rdivmod__",
    "__rfloordiv__", "__rlshift__", "__rmod__", "__rmul__", "__ror__", "__round__", "__rpow__",
    "__rrshift__", "__rshift__", "__rsub__", "__rtruediv__", "__rxor__", "__sub__", "__truediv__",
    "__trunc__", "__xor__"]

/-- Functions of dictionaries. -/
def dictMethods : List String :=
  ["clear", "copy", "fromkeys", "get", "items", "keys", "pop", "popitem", "setdefault", "update",
    "values", "__class_getitem__", "__contains__", "__delitem__", "__getitem__", "__ior__",
    "__iter__", "__len__", "__or__", "__reversed__", "__ror__", "__setitem__"]

/-- Functions of ranges. -/
def rangeMethods : List String :=
  ["count", "index", "start", "step", "stop", "__bool__", "__contains__", "__getitem__", "__iter__",
    "__len__", "__reversed__"]

/-- The functions that only values of a class have. -/
def ownMethods (c : Class) : List String :=
  ([(text, textMethods), (list, listMethods), (pair, pairMethods), (number, numberMethods),
    (flag, numberMethods), (dict, dictMethods), (range, rangeMethods), (nothing, ["__bool__"]),
    (loop, ["cycle", "changed", "__call__", "__iter__", "__len__", "__next__"]),
    (template, ["__getitem__"]), (cycler, ["current", "next", "reset"]), (joiner, ["__call__"]),
    (namespaceObject, ["__setitem__"]), (type, ["mro", "__call__"]),
    (builtin, ["__call__"]), (boundMethod, ["__call__", "__func__"]), (function, ["__call__"]),
    (missing, ["__add__", "__bool__", "__call__", "__iter__", "__len__"])].lookup c).getD []

/-- A value of a class has a function of this name. -/
def hasMethod (c : Class) (name : String) : Bool :=
  c.ownMethods.contains name || commonMethods.contains name

theorem hasMethod_of_mem {c : Class} {name : String} (h : name ∈ commonMethods) :
    c.hasMethod name = true := by
  simp [hasMethod, h]

/-- Classes that can be applied to an argument. -/
def takesArgument (c : Class) : Bool := [dict, list, pair, type].contains c

end Class

/-! ## Missing values -/

/-- Why there is no value: a name stands for none, or a value has no such member, or no item of this
number, or a loop has no item before or behind. -/
inductive Absence where
  | unbound (name : String)
  | member (owner : Class) (name : String)
  | element (owner : Class) (index : Nat)
  | noPrevious
  | noNext
deriving DecidableEq, Repr

/-- What is reported when more is asked of a missing value. -/
def Absence.message : Absence → String
  | unbound name => Text.quoted name ++ " is undefined"
  | member owner name =>
    Text.quoted owner.described ++ " has no attribute " ++ Text.quoted name
  | element owner index => owner.described ++ " has no element " ++ Text.natText index
  | noPrevious => "there is no previous item"
  | noNext => "there is no next item"

/-! ## Values -/

/-- What a name can stand for. Loops are known by their numbers. -/
inductive Value where
  | missing (why : Absence)
  | nothing
  | flag (b : Bool)
  | number (n : Nat)
  | text (s : String)
  | texts (items : List String)
  | pair (first second : Value)
  | record (c : Class) (attributes : List (String × String))
  | loop (id : Nat)
  | template (file : String)
  | type (c : Class)
  | applied (c : Class) (argument : String)
  | method (owner : Value) (name : String)
  | function (home name : String)
deriving DecidableEq, Repr

namespace Value

/-- The class of a value. -/
def toClass : Value → Class
  | missing _ => .missing
  | nothing => .nothing
  | flag _ => .flag
  | number _ => .number
  | text _ => .text
  | texts _ => .list
  | pair .. => .pair
  | record c _ => c
  | loop _ => .loop
  | template _ => .template
  | type _ => .type
  | applied .. => .applied
  | method (loop _) _ => .boundMethod
  | method (type _) _ => .descriptor
  | method .. => .builtin
  | function .. => .function

/-- Whether a value counts as true. -/
def isTrue : Value → Bool
  | missing _ => false
  | nothing => false
  | flag b => b
  | number n => n ≠ 0
  | text s => s ≠ ""
  | texts items => !items.isEmpty
  | _ => true

/-! ## Writing -/

/-- A truth value in writing. -/
def flagText (b : Bool) : String := if b then "True" else "False"

/-- A value as a part of another one, with the loops written as `ofLoop` says. -/
def inspected (ofLoop : Nat → String) : Value → String
  | missing _ => "Undefined"
  | nothing => "None"
  | flag b => flagText b
  | number n => Text.natText n
  | text s => Text.quoted s
  | texts items => "[" ++ ", ".intercalate (items.map Text.quoted) ++ "]"
  | pair a b => "(" ++ a.inspected ofLoop ++ ", " ++ b.inspected ofLoop ++ ")"
  | record c as =>
    c.name ++ "(" ++ ", ".intercalate (as.map fun a => a.1 ++ "=" ++ Text.quoted a.2) ++ ")"
  | loop id => ofLoop id
  | template file => "<TemplateReference " ++ Text.quoted file ++ ">"
  | type c => "<class '" ++ c.title ++ "'>"
  | applied c argument => c.title ++ "[" ++ argument ++ "]"
  | method (loop id) name => "<bound method LoopContext." ++ name ++ " of " ++ ofLoop id ++ ">"
  | method (type c) name => "<method '" ++ name ++ "' of '" ++ c.name ++ "' objects>"
  | method owner name => "<built-in method " ++ name ++ " of " ++ owner.toClass.described ++ ">"
  | function _ name => "<function " ++ name ++ ">"

/-- A value in writing. A missing one is written as nothing. -/
def written (ofLoop : Nat → String) : Value → String
  | missing _ => ""
  | text s => s
  | v => v.inspected ofLoop

/-! ## Members -/

/-- A member of a number. -/
def numberMember (n : Nat) : String → Option Value
  | "real" => some (number n)
  | "imag" => some (number 0)
  | "numerator" => some (number n)
  | "denominator" => some (number 1)
  | _ => none

/-- A member of a class. -/
def classMember (c : Class) : String → Option Value
  | "__name__" => some (text c.name)
  | "__qualname__" => some (text c.name)
  | "__module__" => some (text c.home)
  | name => if c.hasMethod name then some (method (type c) name) else none

/-- A member that only this value has, or values of its class. -/
def ownMember (v : Value) (name : String) : Option Value :=
  match v, name with
  | number n, name => numberMember n name
  | flag b, name => numberMember b.toNat name
  | record c as, name =>
    if name = "__module__" then some (text c.home) else (as.lookup name).map text
  | type c, name => classMember c name
  | method _ m, "__name__" => some (text m)
  | method owner m, "__qualname__" => some (text (owner.toClass.name ++ "." ++ m))
  | method owner _, "__self__" => some owner
  | function _ f, "__name__" => some (text f)
  | function _ f, "__qualname__" => some (text f)
  | function home _, "__module__" => some (text home)
  | _, _ => none

/-- A member of a value that is no loop. -/
def member? (v : Value) (name : String) : Option Value :=
  match v.ownMember name with
  | some w => some w
  | none =>
    if name = "__class__" then some (type v.toClass)
    else if v.toClass.hasMethod name then some (method v name)
    else
      match v with
      | type c => if c.takesArgument then some (applied c (Text.quoted name)) else none
      | _ => none

/-- The item of a number that a value consists of. -/
def element? (v : Value) (index : Nat) : Option Value :=
  match v with
  | text s => s.toList[index]?.map fun c => text c.toString
  | texts items => items[index]?.map text
  | pair a b => [a, b][index]?
  | type c => if c.takesArgument then some (applied c (Text.natText index)) else none
  | _ => none

end Value

end FieldWiring.Template
