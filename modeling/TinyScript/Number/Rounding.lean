import TinyScript.Number.Decimal

/-!
# Rounding numbers

Rounding is exact: it takes a double apart into sign, mantissa and exponent and divides. What is no
finite number rounds to itself.
-/

namespace TinyScript.Number

/-- Whether the sign of a number is negative; negative zero counts. -/
def isNegative (x : Float) : Bool := 0x8000000000000000 ≤ x.toBits.toNat

/-- Whether a number is finite and has no fraction. -/
def isIntegral (x : Float) : Bool :=
  match x.toModel.unpack with
  | .finite _ m e _ => 0 ≤ e || m % Nat.pow 2 (-e).toNat == 0
  | .zero _ => true
  | _ => false

/-- The integer part of a number; NaN has zero, and infinities have the given bounds. -/
def truncate (least most : Int) (x : Float) : Int := x.toModel.unpack.toInt least most

/-- The greatest integer that is at most a number. -/
def floor (x : Float) : Float :=
  match x.toModel.unpack with
  | .finite .positive m e _ => if 0 ≤ e then x else Float.ofNat (m / Nat.pow 2 (-e).toNat)
  | .finite .negative m e _ =>
    if 0 ≤ e then x
    else if m % Nat.pow 2 (-e).toNat = 0 then x
    else -Float.ofNat (m / Nat.pow 2 (-e).toNat + 1)
  | _ => x

/-- The least integer that is at least a number. -/
def ceil (x : Float) : Float := -floor (-x)

/-- The nearest integer, halves going up. -/
def round (x : Float) : Float := floor (x + 0.5)

/-- The lesser of two numbers; negative zero is less than zero. -/
def lesser (x y : Float) : Float :=
  if x == 0 && y == 0 then (if isNegative x then x else y)
  else if x < y then x
  else y

/-- The greater of two numbers; zero is greater than negative zero. -/
def greater (x y : Float) : Float :=
  if x == 0 && y == 0 then (if isNegative x then y else x)
  else if y < x then x
  else y

/-- A position among `n` things: the integer part of a number, at most `n`. Below zero it counts
from the end if `fromEnd`, and is zero otherwise or where that leads below zero. -/
def clamp (x : Float) (n : Nat) (fromEnd : Bool) : Nat :=
  let t := truncate (-n) n x
  if t < 0 then (if fromEnd then (n + t).toNat else 0) else min t.toNat n

/-- The integer that a number is, if it is one. -/
def toIndex? (x : Float) : Option Int := if isIntegral x then some (truncate 0 0 x) else none

end TinyScript.Number
