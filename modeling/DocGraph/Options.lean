import DocGraph.Json.Form
import DocGraph.Json.Decoder

/-!
Options of a build: the names that classification looks for, what happens to duplicate names, how
far aliases are followed, and how much is reported. Options are read from JSON; a missing field
keeps its default.
-/
namespace DocGraph

open Json (Decoder Fault Form Record)

/-- Which of two declarations of one name keeps it. -/
inductive DuplicatePolicy where
  | laterWins
  | firstWins
deriving DecidableEq, Repr

namespace DuplicatePolicy

def tag : DuplicatePolicy → String
  | laterWins => "later_wins"
  | firstWins => "first_wins"

def all : List DuplicatePolicy := [laterWins, firstWins]

def ofJson : Decoder DuplicatePolicy := Decoder.choice all tag .alone

end DuplicatePolicy

namespace Options

def defaultTypingAliases : List String :=
  ["typing.Hashable", "typing.Awaitable", "typing.Coroutine", "typing.AsyncIterable",
   "typing.AsyncIterator", "typing.Iterable", "typing.Iterator", "typing.Reversible",
   "typing.Sized", "typing.Container", "typing.Collection", "typing.Callable",
   "typing.AbstractSet", "typing.MutableSet", "typing.Mapping", "typing.MutableMapping",
   "typing.Sequence", "typing.MutableSequence", "typing.ByteString", "typing.Tuple",
   "typing.List", "typing.Deque", "typing.Set", "typing.FrozenSet", "typing.MappingView",
   "typing.KeysView", "typing.ItemsView", "typing.ValuesView", "typing.ContextManager",
   "typing.AsyncContextManager", "typing.Dict", "typing.DefaultDict", "typing.OrderedDict",
   "typing.Counter", "typing.ChainMap", "typing.Generator", "typing.AsyncGenerator",
   "typing.Type", "typing.Pattern", "typing.Match", "typing.Union", "typing.Literal",
   "typing.Optional"]

def defaultSubscriptableClasses : List String :=
  ["tuple", "list", "dict", "set", "frozenset", "type", "collections.deque",
   "collections.defaultdict", "collections.OrderedDict", "collections.Counter",
   "collections.ChainMap", "collections.abc.Awaitable", "collections.abc.Coroutine",
   "collections.abc.AsyncIterable", "collections.abc.AsyncIterator",
   "collections.abc.AsyncGenerator", "collections.abc.Iterable", "collections.abc.Iterator",
   "collections.abc.Generator", "collections.abc.Reversible", "collections.abc.Container",
   "collections.abc.Collection", "collections.abc.Callable", "collections.abc.Set",
   "collections.abc.MutableSet", "collections.abc.Mapping", "collections.abc.MutableMapping",
   "collections.abc.Sequence", "collections.abc.MutableSequence", "collections.abc.ByteString",
   "collections.abc.MappingView", "collections.abc.KeysView", "collections.abc.ItemsView",
   "collections.abc.ValuesView", "contextlib.AbstractContextManager",
   "contextlib.AbstractAsyncContextManager", "re.Pattern", "re.Match"]

def defaultBuiltinExceptions : List String :=
  ["BaseException", "Exception", "ArithmeticError", "AssertionError", "AttributeError",
   "EOFError", "ImportError", "ModuleNotFoundError", "LookupError", "IndexError", "KeyError",
   "MemoryError", "NameError", "OSError", "IOError", "EnvironmentError", "FileNotFoundError",
   "PermissionError", "RuntimeError", "NotImplementedError", "RecursionError", "StopIteration",
   "StopAsyncIteration", "SyntaxError", "SystemError", "SystemExit", "KeyboardInterrupt",
   "TypeError", "ValueError", "UnicodeError", "UnicodeDecodeError", "UnicodeEncodeError",
   "Warning", "UserWarning", "DeprecationWarning", "RuntimeWarning"]

end Options

structure Options where
  /-- Type hints of names that are never bound again. -/
  finalMarkers : List String := ["typing.Final", "typing_extensions.Final"]
  /-- Type hints of type aliases. -/
  typeAliasMarkers : List String := ["typing.TypeAlias", "typing_extensions.TypeAlias"]
  /-- Callables that make type variables. -/
  typeVariableConstructors : List String :=
    ["typing.TypeVar", "typing_extensions.TypeVar", "typing.TypeVarTuple",
      "typing_extensions.TypeVarTuple"]
  /-- Decorators of overloads. -/
  overloadMarkers : List String := ["typing.overload", "typing_extensions.overload"]
  /-- Names of `typing` that build a type when subscripted. -/
  typingAliases : List String := Options.defaultTypingAliases
  /-- Classes that build a type when subscripted. -/
  subscriptableClasses : List String := Options.defaultSubscriptableClasses
  /-- Base names that make a class an exception. -/
  builtinExceptions : List String := Options.defaultBuiltinExceptions
  duplicatePolicy : DuplicatePolicy := .laterWins
  /-- How many aliases and enclosing names a lookup follows. -/
  maxAliasDepth : Nat := 32
  /-- Diagnostics with a threshold above this are hidden. -/
  verbosity : Int := 0
deriving DecidableEq, Repr

namespace Options

def isFinalMarker (options : Options) (name : String) : Bool := options.finalMarkers.contains name

def isTypeAliasMarker (options : Options) (name : String) : Bool :=
  options.typeAliasMarkers.contains name

def isTypeVariableConstructor (options : Options) (name : String) : Bool :=
  options.typeVariableConstructors.contains name

def isOverloadMarker (options : Options) (name : String) : Bool :=
  options.overloadMarkers.contains name

/-- Whether subscripting the name builds a type. -/
def isTypeConstructor (options : Options) (name : String) : Bool :=
  options.typingAliases.contains name || options.subscriptableClasses.contains name

/-- The name without the module of the built-in names in front. -/
def withoutBuiltins (name : String) : String :=
  let qualifier := "builtins.".toList
  if qualifier.isPrefixOf name.toList then String.ofList (name.toList.drop qualifier.length) else name

def isBuiltinException (options : Options) (name : String) : Bool :=
  options.builtinExceptions.contains (withoutBuiltins name)

def recordName : String := "struct BuilderOptions"

def form : Form :=
  let names := Form.list .string
  .record recordName []
    [("final_markers", names), ("type_alias_markers", names),
      ("type_variable_constructors", names), ("overload_markers", names),
      ("typing_aliases", names), ("subscriptable_classes", names), ("builtin_exceptions", names),
      ("duplicate_policy", .choice (DuplicatePolicy.all.map DuplicatePolicy.tag)),
      ("max_alias_depth", .integer "usize" 0 18446744073709551615),
      ("verbosity", .integer "i8" (-128) 127)]

def fieldNames : List String :=
  ["final_markers", "type_alias_markers", "type_variable_constructors", "overload_markers",
    "typing_aliases", "subscriptable_classes", "builtin_exceptions", "duplicate_policy",
    "max_alias_depth", "verbosity"]

def ofJson (json : Json) : Except Fault Options := do
  let r ← Record.ofJson recordName fieldNames json
  let names := Decoder.list Decoder.str
  let base : Options := {}
  r.whole (Options.mk <$> r.defaulted "final_markers" base.finalMarkers names
    <*> r.defaulted "type_alias_markers" base.typeAliasMarkers names
    <*> r.defaulted "type_variable_constructors" base.typeVariableConstructors names
    <*> r.defaulted "overload_markers" base.overloadMarkers names
    <*> r.defaulted "typing_aliases" base.typingAliases names
    <*> r.defaulted "subscriptable_classes" base.subscriptableClasses names
    <*> r.defaulted "builtin_exceptions" base.builtinExceptions names
    <*> r.defaulted "duplicate_policy" base.duplicatePolicy DuplicatePolicy.ofJson
    <*> r.defaulted "max_alias_depth" base.maxAliasDepth Decoder.u64
    <*> r.defaulted "verbosity" base.verbosity Decoder.i8)

def toJson (options : Options) : Json :=
  .obj [("final_markers", .strs options.finalMarkers),
    ("type_alias_markers", .strs options.typeAliasMarkers),
    ("type_variable_constructors", .strs options.typeVariableConstructors),
    ("overload_markers", .strs options.overloadMarkers),
    ("typing_aliases", .strs options.typingAliases),
    ("subscriptable_classes", .strs options.subscriptableClasses),
    ("builtin_exceptions", .strs options.builtinExceptions),
    ("duplicate_policy", .str options.duplicatePolicy.tag),
    ("max_alias_depth", .nat options.maxAliasDepth),
    ("verbosity", .int options.verbosity)]

/-- The options of a configuration text, or what is wrong with it. -/
def ofText (text : String) : Except String Options := do
  let json ← (Json.read form text).mapError Json.LocatedFault.message
  (ofJson json).mapError Fault.message

end Options

end DocGraph
