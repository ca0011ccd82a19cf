import TinyScript.Text.Basic

/-!
# Decimal numbers

A decimal is a coefficient times a power of ten. Reading one gives the nearest double, ties going
to the even one. Conversely every finite positive double has a shortest decimal: the fewest digits
that read back as it, of these the nearest, and of two equally near ones the even one.
-/

namespace TinyScript

/-- The value `coefficient * 10 ^ exponent`. -/
structure Decimal where
  coefficient : Nat
  exponent : Int
deriving DecidableEq, Inhabited

/-- A positive fraction, the exact value of a finite positive double. -/
structure Fraction where
  numerator : Nat
  denominator : Nat
deriving DecidableEq, Inhabited

namespace Fraction

/-- The value `mantissa * 2 ^ exponent`. -/
def ofBinary (mantissa : Nat) (exponent : Int) : Fraction :=
  if 0 ≤ exponent then ⟨mantissa * Nat.pow 2 exponent.toNat, 1⟩
  else ⟨mantissa, Nat.pow 2 (-exponent).toNat⟩

/-- The value divided by a power of ten. -/
def scale (f : Fraction) (exponent : Int) : Fraction :=
  if 0 ≤ exponent then ⟨f.numerator, f.denominator * Nat.pow 10 exponent.toNat⟩
  else ⟨f.numerator * Nat.pow 10 (-exponent).toNat, f.denominator⟩

/-- The number of decimal digits before the point; zero or less if the value is below one, where
it says how many zeros follow the point. -/
def magnitude (f : Fraction) : Int :=
  if f.denominator ≤ f.numerator then (f.numerator / f.denominator).repr.length
  else 1 - (((f.denominator + f.numerator - 1) / f.numerator - 1).repr.length : Int)

end Fraction

namespace Decimal

/-- The double nearest to a decimal, ties going to the even one. -/
def toFloat (d : Decimal) : Float :=
  if d.exponent < 0 then OfScientific.ofScientific d.coefficient true d.exponent.natAbs
  else OfScientific.ofScientific d.coefficient false d.exponent.natAbs

/-- The decimal digits of the coefficient. -/
def digits (d : Decimal) : List Char := Nat.toDigits 10 d.coefficient

/-- The nearer of the two multiples of `10 ^ exponent` around a value, given that the smaller one
has coefficient `low`; a tie goes to the even coefficient. -/
def nearer (f : Fraction) (exponent : Int) (low : Nat) : Decimal :=
  let scaled := f.scale exponent
  let twice := 2 * (scaled.numerator - low * scaled.denominator)
  if twice < scaled.denominator ∨ (twice = scaled.denominator ∧ low % 2 = 0) then ⟨low, exponent⟩
  else ⟨low + 1, exponent⟩

/-- The nearest decimal with `n` digits, unless only its neighbour reads back as `x`, and nothing
if neither does. -/
def withDigits? (x : Float) (f : Fraction) (n : Nat) : Option Decimal :=
  let exponent := f.magnitude - n
  let scaled := f.scale exponent
  let low := scaled.numerator / scaled.denominator
  let best := nearer f exponent low
  if best.toFloat == x then some best
  else
    let other : Decimal := ⟨if best.coefficient = low then low + 1 else low, exponent⟩
    if other.toFloat == x then some other else none

/-- The exact decimal value of `mantissa * 2 ^ exponent`. -/
def ofBinary (mantissa : Nat) (exponent : Int) : Decimal :=
  if 0 ≤ exponent then ⟨mantissa * Nat.pow 2 exponent.toNat, 0⟩
  else ⟨mantissa * Nat.pow 5 (-exponent).toNat, exponent⟩

/-- Take trailing zeros off the coefficient, at most `fuel` of them. -/
def trim : Nat → Decimal → Decimal
  | 0, d => d
  | n + 1, d =>
    if d.coefficient ≠ 0 ∧ d.coefficient % 10 = 0 then trim n ⟨d.coefficient / 10, d.exponent + 1⟩
    else d

/-- The absolute value of a double that is an integer below `2 ^ 53`. -/
def small? (x : Float) : Option Nat :=
  let n := x.abs.toUInt64
  if n < 0x20000000000000 && n.toFloat == x.abs then some n.toNat else none

/-- The shortest decimal that reads back as the absolute value of a finite double. Doubles around an
integer below `2 ^ 53` are at most one apart, so no other integer reads back as it. -/
def shortest (x : Float) : Decimal :=
  match small? x with
  | some n => trim 16 ⟨n, 0⟩
  | none =>
    match x.abs.toModel.unpack with
    | .finite _ m e _ =>
      let f := Fraction.ofBinary m e
      let d := ((List.range' 1 17).findSome? (withDigits? x.abs f)).getD (ofBinary m e)
      d.trim d.digits.length
    | _ => ⟨0, 0⟩

/-- The nearest decimal with `n` digits to the absolute value of a finite double, ties going to
the even digit, without trailing zeros. -/
def rounded (n : Nat) (x : Float) : Decimal :=
  match x.abs.toModel.unpack with
  | .finite _ m e _ =>
    let f := Fraction.ofBinary m e
    let exponent := f.magnitude - n
    let scaled := f.scale exponent
    (nearer f exponent (scaled.numerator / scaled.denominator)).trim (n + 1)
  | _ => ⟨0, 0⟩

/-- The power of ten of the first digit. -/
def leading (d : Decimal) : Int := d.exponent + (d.digits.length : Int) - 1

/-- Digits without exponent. -/
def positional (d : Decimal) : List Char :=
  if 0 ≤ d.exponent then d.digits ++ List.replicate d.exponent.toNat '0'
  else
    let places := d.exponent.natAbs
    let whole := d.digits.length - places
    if places < d.digits.length then d.digits.take whole ++ '.' :: d.digits.drop whole
    else '0' :: '.' :: (List.replicate (places - d.digits.length) '0' ++ d.digits)

/-- One digit before the point, the others after it, and the power of ten with its sign and at
least two digits. -/
def scientific (d : Decimal) : List Char :=
  let mantissa :=
    match d.digits with
    | c :: [] => [c]
    | c :: rest => c :: '.' :: rest
    | [] => []
  let power := Nat.toDigits 10 d.leading.natAbs
  let padded := if power.length < 2 then '0' :: power else power
  mantissa ++ 'e' :: (if d.leading < 0 then '-' else '+') :: padded

end Decimal

end TinyScript
