import TinyScript.Number.Rounding
import TinyScript.Text.Character

/-!
# Number texts

Numbers have two written forms. Program texts know digits without exponent only. Values are
displayed in digits when they are integers below `10 ^ 21`, and otherwise with an exponent when
they are very small or have more than six digits before the point.
-/

namespace TinyScript.Number

/-- A minus sign for negative numbers, also for negative zero. -/
def sign (x : Float) : List Char := if isNegative x then ['-'] else []

/-- The text of a finite number in a program: the shortest digits, without exponent. -/
def literal (x : Float) : Text :=
  if x.isNaN then "NaN"
  else if x.isInf then (if x < 0 then "-Inf" else "+Inf")
  else Text.ofChars (sign x ++ (Decimal.shortest x).positional)

/-- Digits without exponent while the first digit stands for `10 ^ -4` up to, not including,
`10 ^ most`; with an exponent otherwise. -/
def general (most : Int) (d : Decimal) : List Char :=
  if d.leading < -4 ∨ most ≤ d.leading then d.scientific else d.positional

/-- The display form of a number. -/
def display (x : Float) : Text :=
  if x.isNaN then "NaN"
  else if x.isInf then (if x < 0 then "-Infinity" else "Infinity")
  else if x == 0 then "0"
  else if isIntegral x && x.abs < 1e21 then Text.ofChars (sign x ++ (Decimal.shortest x).positional)
  else Text.ofChars (sign x ++ general 6 (Decimal.shortest x))

end TinyScript.Number
