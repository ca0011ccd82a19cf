import TinyScript.Text.Basic

/-!
# Hexadecimal digits

Numbers in a fixed count of hexadecimal digits, in small letters, and the value of a digit.
-/

namespace TinyScript.Text

/-- The hexadecimal digit of a number below sixteen. -/
def lowerHex (n : Nat) : Char := Char.ofNat (if n < 10 then n + 48 else n + 87)

/-- The last `width` hexadecimal digits of a number. -/
def hexDigits (width n : Nat) : List Char :=
  (List.range width).map fun i => lowerHex (n / Nat.pow 16 (width - 1 - i) % 16)

/-- The value of a letter or decimal digit as a digit of a large base. -/
def digitValue? (c : Char) : Option Nat :=
  if '0' ≤ c ∧ c ≤ '9' then some (c.toNat - 48)
  else if 'a' ≤ c ∧ c ≤ 'z' then some (c.toNat - 87)
  else if 'A' ≤ c ∧ c ≤ 'Z' then some (c.toNat - 55)
  else none

/-- The value of a digit in a base. -/
def digitIn? (base : Nat) (c : Char) : Option Nat := (digitValue? c).filter (· < base)

end TinyScript.Text
