import TinyScript.Number.Reader
import TinyScript.Number.Rounding
import TinyScript.Text.Base64
import TinyScript.Yaml.Timestamp

/-!
# What scalars stand for

A plain scalar stands for nothing, a truth value, a number or its own text, as its spelling tells.
Other scalars stand for their text, unless a tag says otherwise.
-/

namespace TinyScript.Yaml

/-- What a scalar stands for. -/
inductive Meaning where
  | nothing
  | boolean (b : Bool)
  | integer (n : Int)
  | number (x : Float)
  | text (t : Text)

namespace Meaning

/-- The tag of a meaning. -/
def tag : Meaning → Text
  | nothing => "!!null"
  | boolean _ => "!!bool"
  | integer _ => "!!int"
  | number _ => "!!float"
  | text _ => "!!str"

/-- The words with a meaning of their own. -/
def ofWord? (cs : List Char) : Option Meaning :=
  if cs = [] ∨ cs = "~".toList ∨ cs = "null".toList ∨ cs = "Null".toList ∨ cs = "NULL".toList then
    some nothing
  else if cs = "true".toList ∨ cs = "True".toList ∨ cs = "TRUE".toList then some (boolean true)
  else if cs = "false".toList ∨ cs = "False".toList ∨ cs = "FALSE".toList then some (boolean false)
  else if cs = ".nan".toList ∨ cs = ".NaN".toList ∨ cs = ".NAN".toList then some (number (0 / 0))
  else
    let (negative, size) := Number.takeSign cs
    if size = ".inf".toList ∨ size = ".Inf".toList ∨ size = ".INF".toList then
      some (number (if negative then -(1 / 0) else 1 / 0))
    else none

/-- Whether characters are an exponent. -/
def isExponent : List Char → Bool
  | c :: rest =>
    (c == 'e' || c == 'E') && !(Number.takeSign rest).2.isEmpty &&
      (Number.takeSign rest).2.all Char.isDigit
  | [] => false

/-- Whether characters are a decimal number with an optional point and exponent. -/
def isDecimal (cs : List Char) : Bool :=
  let body := (Number.takeSign cs).2
  let whole := body.takeWhile Char.isDigit
  match body.drop whole.length with
  | [] => !whole.isEmpty
  | '.' :: rest =>
    let places := rest.takeWhile Char.isDigit
    let tail := rest.drop places.length
    (!whole.isEmpty || !places.isEmpty) && (tail.isEmpty || isExponent tail)
  | tail => !whole.isEmpty && isExponent tail

/-- The integer in a base that is written after its mark, where a sign may follow the mark. -/
def ofMarked? (base : Nat) (cs : List Char) : Option Meaning :=
  let (negative, digits) := Number.takeSign cs
  match (Number.readDigits base digits).bind (Number.withSign negative) with
  | .ok n => some (integer n)
  | .error _ =>
    match Number.readDigits base cs with
    | .ok n => some (integer n)
    | .error _ => none

/-- The number that begins with a sign or a digit, underscores left out. -/
def ofDigits? (cs : List Char) : Option Meaning :=
  match Number.readInteger cs with
  | .ok n => some (integer n)
  | .error _ =>
    match Number.readUnsigned cs with
    | .ok n => some (integer n)
    | .error _ =>
      match cs with
      | '0' :: 'b' :: rest => ofMarked? 2 rest
      | '0' :: 'o' :: rest => ofMarked? 8 rest
      | _ => if isDecimal cs then (Number.readFloat? cs).map number else none

/-- What a plain scalar stands for. -/
def ofPlain (t : Text) : Meaning :=
  let cs := t.chars
  match ofWord? cs with
  | some m => m
  | none =>
    match cs with
    | c :: _ =>
      let found :=
        if c.isDigit || c == '+' || c == '-' then ofDigits? (cs.filter (· != '_'))
        else if c == '.' then (Number.readFloat? cs).map number
        else none
      found.getD (text t)
    | [] => text t

/-- A meaning under a tag; there is none if the tag says something else. -/
def under? (m : Meaning) (t : Text) : Option Meaning :=
  if t = m.tag then some m
  else if t = "!!float" then
    match m with
    | integer n => if n < 0x8000000000000000 then some (number (Float.ofInt n)) else none
    | _ => none
  else none

/-- The tags that say what a spelling must stand for. -/
def spelledTags : List Text := ["!!bool", "!!int", "!!float", "!!null"]

/-- What a scalar stands for, if its tag allows it to stand for anything. -/
def ofScalar? (t : Text) (plain : Bool) (tag : Text) : Option Meaning :=
  if tag.isEmpty then some (if plain then ofPlain t else text t)
  else if spelledTags.contains tag then (ofPlain t).under? tag
  else if tag = "!!timestamp" then (if Timestamp.holds t.chars then some (text t) else none)
  else if tag = "!!binary" then (Text.ofBase64? t).map text
  else some (text t)

end Meaning

end TinyScript.Yaml
