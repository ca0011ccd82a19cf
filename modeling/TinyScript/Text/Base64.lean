import TinyScript.Text.Basic

/-!
# Base64

Bytes written with sixty-four letters, four letters for three bytes. The last group is filled up
with equals signs, and line ends may stand anywhere.
-/

namespace TinyScript.Text

/-- The value of a letter. -/
def sixBits? (b : UInt8) : Option Nat :=
  let n := b.toNat
  if 65 ≤ n ∧ n ≤ 90 then some (n - 65)
  else if 97 ≤ n ∧ n ≤ 122 then some (n - 71)
  else if 48 ≤ n ∧ n ≤ 57 then some (n + 4)
  else if n = 43 then some 62
  else if n = 47 then some 63
  else none

/-- The number that four letters stand for. -/
def groupValue? (a b c d : UInt8) : Option Nat := do
  return ((← sixBits? a) * 64 + (← sixBits? b)) * 4096 + (← sixBits? c) * 64 + (← sixBits? d)

/-- The first bytes of a number of three. -/
def groupBytes (count n : Nat) : List UInt8 :=
  [UInt8.ofNat (n / 65536), UInt8.ofNat (n / 256), UInt8.ofNat n].take count

/-- The letter of value zero. -/
def zeroLetter : UInt8 := 65

/-- The sign that fills the last group up. -/
def filler : UInt8 := 61

/-- The bytes of letters without line ends, behind those of `done`, which are newest first. -/
def decodeGroups (done : List UInt8) : List UInt8 → Option (List UInt8)
  | [] => some done.reverse
  | [a, b, c, d] =>
    if c = filler ∧ d = filler then
      (groupValue? a b zeroLetter zeroLetter).map fun n => done.reverse ++ groupBytes 1 n
    else if d = filler then
      (groupValue? a b c zeroLetter).map fun n => done.reverse ++ groupBytes 2 n
    else (groupValue? a b c d).map fun n => done.reverse ++ groupBytes 3 n
  | a :: b :: c :: d :: rest =>
    match groupValue? a b c d with
    | some n => decodeGroups ((groupBytes 3 n).reverse ++ done) rest
    | none => none
  | _ => none

/-- The text that is written in Base64. -/
def ofBase64? (t : Text) : Option Text :=
  (decodeGroups [] (t.bytes.filter fun b => b != 10 && b != 13)).map ofBytes

end TinyScript.Text
