import TinyScript.Number.Format
import TinyScript.Number.Reader
import TinyScript.Text.Case

/-!
# Sizes

A size is a number of bytes. It is written as a number with an optional unit, where units are powers
of 1024; it is shown in decimal units with at most four digits.
-/

namespace TinyScript.Size

/-- Whether a byte can be the last one of a number or of the space behind it. -/
def isMark (b : UInt8) : Bool := (48 ≤ b && b ≤ 57) || b == 46 || b == 32

/-- The power of 1024 that a letter stands for. -/
def unit? (b : UInt8) : Option Nat :=
  match Char.ofNat b.toNat with
  | 'k' => some 1
  | 'm' => some 2
  | 'g' => some 3
  | 't' => some 4
  | 'p' => some 5
  | _ => none

/-- The whole bytes of a number, which must have less than sixty-four bits. -/
def wholeBytes? (x : Float) : Option Nat :=
  if x < 9223372036854775808.0 then some (Number.truncate 0 0 x).toNat else none

/-- The bytes that a number of units in lower case stands for. Behind the letter of a unit, one byte
must be a `b` and two must be `ib`. -/
def scaled? (x : Float) : List UInt8 → Option Nat
  | [] => wholeBytes? x
  | b :: rest =>
    if b = 98 then (if rest.isEmpty then wholeBytes? x else none)
    else
      match unit? b with
      | none => none
      | some power =>
        if (rest.length = 1 ∧ rest ≠ [98]) ∨ (rest.length = 2 ∧ rest ≠ [105, 98]) then none
        else wholeBytes? (x * Float.ofNat (Nat.pow 1024 power))

/-- The most bytes that a unit may have. -/
def longestUnit : Nat := 3

/-- Read a size: a number, a space that may be left out, and a unit that may be left out. -/
def ofText? (t : Text) : Option Nat :=
  let unit := (t.bytes.reverse.takeWhile fun b => !isMark b).reverse
  match t.bytes.reverse.dropWhile fun b => !isMark b with
  | [] => none
  | b :: before =>
    let number := Text.ofBytes (if b = 32 then before else b :: before).reverse
    match Number.readFloat? number.chars with
    | none => none
    | some x =>
      if x < 0 ∨ longestUnit < unit.length then none else scaled? x (Text.ofBytes unit).folded.bytes

/-- The units that sizes are shown in. -/
def shownUnits : List String := ["B", "kB", "MB", "GB", "TB", "PB", "EB", "ZB", "YB"]

/-- Divide by a thousand and go to the next unit, as long as there is one and the number is not
below a thousand. -/
def shownIn (x : Float) : List String → Text
  | [] => Text.empty
  | [unit] => Text.ofChars (Number.general 4 (Decimal.rounded 4 x)) ++ unit
  | unit :: rest =>
    if x < 1000 then Text.ofChars (Number.general 4 (Decimal.rounded 4 x)) ++ unit
    else shownIn (x / 1000) rest

/-- A size as it is shown to people. -/
def shown (bytes : Nat) : Text := shownIn (Float.ofNat bytes) shownUnits

end TinyScript.Size
