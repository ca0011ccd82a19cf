import TinyScript.Builtin.Basic
import TinyScript.Text.Order

/-!
# The catalogue

What is told to users about the forms and builtins: a summary, how many arguments they take, their
parameters and what they give back, in chapters. Calls of builtins are checked against the
numbers of arguments stated here.
-/

namespace TinyScript

/-- A parameter as it is described to users. -/
structure Parameter where
  name : String
  type : String
  note : String
deriving DecidableEq, Inhabited

/-- What users are told about a form or builtin; without `most` any number of arguments will do. -/
structure Signature where
  summary : String
  least : Nat
  most : Option Nat
  params : List Parameter
  returns : String
deriving DecidableEq, Inhabited

/-- The signature of a form. -/
def Form.signature : Form → Signature
  | branch =>
    { summary := "evaluates the condition and then exactly one of the branches; only false counts as false"
      least := 3
      most := some 3
      params := [
        ⟨"condition", "any", "condition to evaluate"⟩,
        ⟨"then", "any", "code to evaluate if the condition is not false"⟩,
        ⟨"else", "any", "code to evaluate if the condition is false"⟩]
      returns := "any" }
  | loop =>
    { summary := "evaluates body as long as the condition is not false; returns false"
      least := 2
      most := some 2
      params := [
        ⟨"condition", "any", "condition checked before every iteration"⟩,
        ⟨"body", "any", "code to repeat"⟩]
      returns := "bool" }
  | sequence =>
    { summary := "evaluates all expressions in order and returns the result of the last one (false if there is none)"
      least := 0
      most := none
      params := [
        ⟨"expression...", "any", "expressions to evaluate"⟩]
      returns := "any" }
  | define =>
    { summary := "binds a name in the current scope, shadowing outer bindings"
      least := 2
      most := some 2
      params := [
        ⟨"name", "word", "name to bind"⟩,
        ⟨"value", "any", "value to bind"⟩]
      returns := "any" }
  | assign =>
    { summary := "updates the nearest existing binding of a name"
      least := 2
      most := some 2
      params := [
        ⟨"name", "word", "name to update; must be bound somewhere"⟩,
        ⟨"value", "any", "new value"⟩]
      returns := "any" }
  | function =>
    { summary := "creates a function closing over the current scope; the last argument is the body"
      least := 1
      most := none
      params := [
        ⟨"parameter...", "word", "parameter names"⟩,
        ⟨"body", "any", "code evaluated on each call"⟩]
      returns := "func" }
  | classForm =>
    { summary := "declares a class: a constructor value bound to name whose instances resolve methods through the class"
      least := 2
      most := none
      params := [
        ⟨"name", "word", "name of the class"⟩,
        ⟨"constructor", "func", "fun(this, args...) called for every new instance"⟩,
        ⟨"method...", "method", "method(\"name\", fun(this, args...))"⟩]
      returns := "class" }

/-- The signature of a builtin. -/
def Builtin.signature : Builtin → Signature
  | add =>
    { summary := "adds two numbers; if one side is a string both are concatenated as strings"
      least := 2
      most := some 2
      params := [
        ⟨"a", "number|string", "left operand"⟩,
        ⟨"b", "number|string", "right operand"⟩]
      returns := "number|string" }
  | subtract =>
    { summary := "subtracts b from a"
      least := 2
      most := some 2
      params := [
        ⟨"a", "number", "left operand"⟩,
        ⟨"b", "number", "right operand"⟩]
      returns := "number" }
  | multiply =>
    { summary := "multiplies two numbers"
      least := 2
      most := some 2
      params := [
        ⟨"a", "number", "left operand"⟩,
        ⟨"b", "number", "right operand"⟩]
      returns := "number" }
  | divide =>
    { summary := "divides a by b (division by zero yields Infinity or NaN)"
      least := 2
      most := some 2
      params := [
        ⟨"a", "number", "left operand"⟩,
        ⟨"b", "number", "right operand"⟩]
      returns := "number" }
  | equal =>
    { summary := "true if both values are equal; arrays, functions and instances compare by identity"
      least := 2
      most := some 2
      params := [
        ⟨"a", "any", "left operand"⟩,
        ⟨"b", "any", "right operand"⟩]
      returns := "bool" }
  | notEqual =>
    { summary := "true if both values differ"
      least := 2
      most := some 2
      params := [
        ⟨"a", "any", "left operand"⟩,
        ⟨"b", "any", "right operand"⟩]
      returns := "bool" }
  | less =>
    { summary := "true if a < b"
      least := 2
      most := some 2
      params := [
        ⟨"a", "number|string", "left operand"⟩,
        ⟨"b", "number|string", "right operand (same type as a)"⟩]
      returns := "bool" }
  | greater =>
    { summary := "true if a > b"
      least := 2
      most := some 2
      params := [
        ⟨"a", "number|string", "left operand"⟩,
        ⟨"b", "number|string", "right operand (same type as a)"⟩]
      returns := "bool" }
  | lessEqual =>
    { summary := "true if a <= b"
      least := 2
      most := some 2
      params := [
        ⟨"a", "number|string", "left operand"⟩,
        ⟨"b", "number|string", "right operand (same type as a)"⟩]
      returns := "bool" }
  | greaterEqual =>
    { summary := "true if a >= b"
      least := 2
      most := some 2
      params := [
        ⟨"a", "number|string", "left operand"⟩,
        ⟨"b", "number|string", "right operand (same type as a)"⟩]
      returns := "bool" }
  | conjunction =>
    { summary := "returns a if it is false, otherwise b (both sides are evaluated)"
      least := 2
      most := some 2
      params := [
        ⟨"a", "any", "first value"⟩,
        ⟨"b", "any", "second value"⟩]
      returns := "any" }
  | disjunction =>
    { summary := "returns a unless it is false, otherwise b (both sides are evaluated)"
      least := 2
      most := some 2
      params := [
        ⟨"a", "any", "first value"⟩,
        ⟨"b", "any", "second value"⟩]
      returns := "any" }
  | negation =>
    { summary := "true if the value is false, otherwise false"
      least := 1
      most := some 1
      params := [
        ⟨"value", "any", "value to negate"⟩]
      returns := "bool" }
  | abs =>
    { summary := "absolute value"
      least := 1
      most := some 1
      params := [
        ⟨"value", "number", "value to round or convert"⟩]
      returns := "number" }
  | floor =>
    { summary := "rounds down"
      least := 1
      most := some 1
      params := [
        ⟨"value", "number", "value to round or convert"⟩]
      returns := "number" }
  | ceil =>
    { summary := "rounds up"
      least := 1
      most := some 1
      params := [
        ⟨"value", "number", "value to round or convert"⟩]
      returns := "number" }
  | round =>
    { summary := "rounds to the nearest integer; halves round up"
      least := 1
      most := some 1
      params := [
        ⟨"value", "number", "value to round or convert"⟩]
      returns := "number" }
  | min =>
    { summary := "smallest of the given numbers (Infinity if there is none)"
      least := 0
      most := none
      params := [
        ⟨"value...", "number", "values to compare"⟩]
      returns := "number" }
  | max =>
    { summary := "largest of the given numbers (-Infinity if there is none)"
      least := 0
      most := none
      params := [
        ⟨"value...", "number", "values to compare"⟩]
      returns := "number" }
  | random =>
    { summary := "pseudo random number in [0, 1)"
      least := 0
      most := some 0
      params := []
      returns := "number" }
  | typeOf =>
    { summary := "name of the value's type: number, string, boolean, array, function, class or instance"
      least := 1
      most := some 1
      params := [
        ⟨"value", "any", "value to examine"⟩]
      returns := "string" }
  | concat =>
    { summary := "concatenates all values as strings"
      least := 1
      most := none
      params := [
        ⟨"value...", "any", "values to concatenate"⟩]
      returns := "string" }
  | substring =>
    { summary := "characters from start up to (not including) end; the bounds are clamped and swapped if start > end"
      least := 2
      most := some 3
      params := [
        ⟨"value", "string", "input string"⟩,
        ⟨"start", "number", "first character"⟩,
        ⟨"end", "number", "end position (default: end of string)"⟩]
      returns := "string" }
  | charAt =>
    { summary := "character at the given position or \"\" if out of range"
      least := 2
      most := some 2
      params := [
        ⟨"value", "string", "input string"⟩,
        ⟨"index", "number", "position beginning from 0"⟩]
      returns := "string" }
  | toLowerCase =>
    { summary := "converts a string to lower case"
      least := 1
      most := some 1
      params := [
        ⟨"value", "string", "input string"⟩]
      returns := "string" }
  | toUpperCase =>
    { summary := "converts a string to upper case"
      least := 1
      most := some 1
      params := [
        ⟨"value", "string", "input string"⟩]
      returns := "string" }
  | trim =>
    { summary := "removes leading and trailing white space"
      least := 1
      most := some 1
      params := [
        ⟨"value", "string", "input string"⟩]
      returns := "string" }
  | split =>
    { summary := "splits a string at each separator; an empty separator splits into characters"
      least := 2
      most := some 2
      params := [
        ⟨"value", "string", "input string"⟩,
        ⟨"separator", "string", "separator"⟩]
      returns := "array" }
  | replace =>
    { summary := "replaces the first occurrence of search"
      least := 3
      most := some 3
      params := [
        ⟨"value", "string", "input string"⟩,
        ⟨"search", "string", "text to find"⟩,
        ⟨"replacement", "string", "text to insert instead"⟩]
      returns := "string" }
  | startsWith =>
    { summary := "true if the string begins with prefix"
      least := 2
      most := some 2
      params := [
        ⟨"value", "string", "input string"⟩,
        ⟨"prefix", "string", "prefix to test"⟩]
      returns := "bool" }
  | endsWith =>
    { summary := "true if the string ends with suffix"
      least := 2
      most := some 2
      params := [
        ⟨"value", "string", "input string"⟩,
        ⟨"suffix", "string", "suffix to test"⟩]
      returns := "bool" }
  | repeatText =>
    { summary := "repeats a string count times"
      least := 2
      most := some 2
      params := [
        ⟨"value", "string", "input string"⟩,
        ⟨"count", "number", "non-negative integer"⟩]
      returns := "string" }
  | array =>
    { summary := "returns an array containing the parameters as elements"
      least := 0
      most := none
      params := [
        ⟨"value...", "any", "elements"⟩]
      returns := "array" }
  | length =>
    { summary := "number of elements of an array or characters of a string"
      least := 1
      most := some 1
      params := [
        ⟨"value", "array|string", "value to measure"⟩]
      returns := "number" }
  | element =>
    { summary := "element at the given index; out of range indices are a RangeError"
      least := 2
      most := some 2
      params := [
        ⟨"array", "array", "input array"⟩,
        ⟨"index", "number", "index beginning from 0"⟩]
      returns := "any" }
  | push =>
    { summary := "appends values to the array in place and returns the new length"
      least := 2
      most := none
      params := [
        ⟨"array", "array", "input array"⟩,
        ⟨"value...", "any", "values to append"⟩]
      returns := "number" }
  | pop =>
    { summary := "removes and returns the last element; false if the array is empty"
      least := 1
      most := some 1
      params := [
        ⟨"array", "array", "input array"⟩]
      returns := "any" }
  | slice =>
    { summary := "copies the part from start up to (not including) end of an array or string; negative positions count from the end"
      least := 2
      most := some 3
      params := [
        ⟨"value", "array|string", "input"⟩,
        ⟨"start", "number", "first position"⟩,
        ⟨"end", "number", "end position (default: length)"⟩]
      returns := "array|string" }
  | join =>
    { summary := "joins the elements as strings with a separator (default \",\")"
      least := 1
      most := some 2
      params := [
        ⟨"array", "array", "input array"⟩,
        ⟨"separator", "string", "separator"⟩]
      returns := "string" }
  | map =>
    { summary := "new array with the callback applied to every element"
      least := 2
      most := some 2
      params := [
        ⟨"array", "array", "input array"⟩,
        ⟨"callback", "func", "function called with one element"⟩]
      returns := "array" }
  | filter =>
    { summary := "new array with the elements for which the callback does not return false"
      least := 2
      most := some 2
      params := [
        ⟨"array", "array", "input array"⟩,
        ⟨"callback", "func", "function called with one element"⟩]
      returns := "array" }
  | forEach =>
    { summary := "calls the callback for every element; returns false"
      least := 2
      most := some 2
      params := [
        ⟨"array", "array", "input array"⟩,
        ⟨"callback", "func", "function called with one element"⟩]
      returns := "bool" }
  | find =>
    { summary := "first element for which the callback does not return false; false if there is none"
      least := 2
      most := some 2
      params := [
        ⟨"array", "array", "input array"⟩,
        ⟨"callback", "func", "function called with one element"⟩]
      returns := "any" }
  | reduce =>
    { summary := "folds the array from the left: acc = callback(acc, element)"
      least := 3
      most := some 3
      params := [
        ⟨"array", "array", "input array"⟩,
        ⟨"callback", "func", "function (acc, element) returning the next acc"⟩,
        ⟨"initial", "any", "initial accumulator"⟩]
      returns := "any" }
  | sort =>
    { summary := "sorted copy of the array; numbers and strings sort naturally, a comparator(a, b) returns a negative number if a comes first"
      least := 1
      most := some 2
      params := [
        ⟨"array", "array", "input array"⟩,
        ⟨"comparator", "func", "optional function (a, b) returning a number"⟩]
      returns := "array" }
  | reverse =>
    { summary := "reversed copy of the array"
      least := 1
      most := some 1
      params := [
        ⟨"array", "array", "input array"⟩]
      returns := "array" }
  | includes =>
    { summary := "true if the array contains the value or the string contains the substring"
      least := 2
      most := some 2
      params := [
        ⟨"haystack", "array|string", "where to search"⟩,
        ⟨"needle", "any", "what to search"⟩]
      returns := "bool" }
  | indexOf =>
    { summary := "position of the first occurrence in an array or string, -1 if not found"
      least := 2
      most := some 2
      params := [
        ⟨"haystack", "array|string", "where to search"⟩,
        ⟨"needle", "any", "what to search"⟩]
      returns := "number" }
  | get =>
    { summary := "reads a field of an instance; missing fields are false"
      least := 2
      most := some 2
      params := [
        ⟨"instance", "instance", "object created by a class"⟩,
        ⟨"field", "string", "field name"⟩]
      returns := "any" }
  | put =>
    { summary := "writes a field of an instance and returns the value"
      least := 3
      most := some 3
      params := [
        ⟨"instance", "instance", "object created by a class"⟩,
        ⟨"field", "string", "field name"⟩,
        ⟨"value", "any", "new value"⟩]
      returns := "any" }
  | call =>
    { summary := "calls a method of the instance's class with the instance as first argument"
      least := 2
      most := none
      params := [
        ⟨"instance", "instance", "object created by a class"⟩,
        ⟨"method", "string", "method name"⟩,
        ⟨"args...", "any", "further arguments"⟩]
      returns := "any" }
  | print =>
    { summary := "writes the display form of the value followed by a newline and returns the value"
      least := 1
      most := some 1
      params := [
        ⟨"value", "any", "value to print"⟩]
      returns := "any" }
  | help =>
    { summary := "lists all builtins or shows the documentation of one of them"
      least := 0
      most := some 1
      params := [
        ⟨"name", "string", "name of the function"⟩]
      returns := "bool" }
  | undeclared =>
    { summary := ""
      least := 0
      most := none
      params := []
      returns := "any" }

/-- Something that the catalogue describes. -/
inductive Entry where
  | form (f : Form)
  | builtin (b : Builtin)
deriving DecidableEq, Inhabited

namespace Entry

/-- The declared name. -/
def name : Entry → String
  | form f => f.name
  | builtin b => b.name

/-- The declared signature. -/
def signature : Entry → Signature
  | form f => f.signature
  | builtin b => b.signature

/-- Whether the catalogue itself says what the entry does. Forms belong to the evaluator, and what
writes to an output is made together with a top scope. -/
def isBound : Entry → Bool
  | form _ => false
  | builtin b => !b.writes

end Entry

/-- A chapter of the catalogue. -/
structure Chapter where
  title : String
  entries : List Entry

namespace Catalogue

/-- All chapters, in order. -/
def chapters : List Chapter := [
  ⟨"Special forms", [
    .form .branch, .form .loop, .form .sequence, .form .define, .form .assign, .form
    .function, .form .classForm]⟩,
  ⟨"Arithmetic / Logic", [
    .builtin .add, .builtin .subtract, .builtin .multiply, .builtin .divide, .builtin .equal,
    .builtin .notEqual, .builtin .less, .builtin .greater, .builtin .lessEqual, .builtin
    .greaterEqual, .builtin .conjunction, .builtin .disjunction, .builtin .negation]⟩,
  ⟨"Numbers", [
    .builtin .abs, .builtin .floor, .builtin .ceil, .builtin .round, .builtin .min, .builtin
    .max, .builtin .random, .builtin .typeOf]⟩,
  ⟨"Strings", [
    .builtin .concat, .builtin .substring, .builtin .charAt, .builtin .toLowerCase, .builtin
    .toUpperCase, .builtin .trim, .builtin .split, .builtin .replace, .builtin .startsWith,
    .builtin .endsWith, .builtin .repeatText]⟩,
  ⟨"Arrays", [
    .builtin .array, .builtin .length, .builtin .element, .builtin .push, .builtin .pop,
    .builtin .slice, .builtin .join, .builtin .map, .builtin .filter, .builtin .forEach,
    .builtin .find, .builtin .reduce, .builtin .sort, .builtin .reverse, .builtin .includes,
    .builtin .indexOf]⟩,
  ⟨"Objects", [
    .builtin .get, .builtin .put, .builtin .call]⟩,
  ⟨"IO", [
    .builtin .print, .builtin .help]⟩]

/-- All entries, in order. -/
def entries : List Entry := chapters.flatMap Chapter.entries

/-- The builtins among the entries. -/
def builtins : List Builtin :=
  entries.filterMap fun
    | .builtin b => some b
    | .form _ => none

/-- The entry with a name. -/
def find? (name : Text) : Option Entry := entries.find? fun e => Text.ofString e.name == name

/-- All declared names in increasing order. -/
def names : List Text := Text.sorted (entries.map fun e => Text.ofString e.name)

/-- The declared names that begin with a text, in increasing order. -/
def namesFrom (start : Text) : List Text := Text.extensions start names

end Catalogue

end TinyScript
