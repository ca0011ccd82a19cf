import TinyScript.Text.Character
import TinyScript.Text.Hex

/-!
# Supplies

What a program draws from outside: a label for each instance that it makes, and random numbers. Any
two sequences will do. Nothing is asked of them: labels need not differ, and how the numbers are
spread over the unit interval is left out.
-/

namespace TinyScript

/-- The labels of instances and the random numbers to come, with how many of them were drawn. -/
structure Supply where
  labels : Nat → Text
  born : Nat
  numbers : Nat → Float
  drawn : Nat
deriving Inhabited

namespace Supply

/-- The next label. -/
def label (s : Supply) : Text := s.labels s.born

/-- The supply without the next label. -/
def bear (s : Supply) : Supply := { s with born := s.born + 1 }

/-- The next random number. -/
def number (s : Supply) : Float := s.numbers s.drawn

/-- The supply without the next random number. -/
def draw (s : Supply) : Supply := { s with drawn := s.drawn + 1 }

/-- The last eight hexadecimal digits of a number. -/
def hexLabel (n : Nat) : Text := Text.ofChars (Text.hexDigits 8 n)

/-- A number in the unit interval that has little to do with the one given. -/
def scattered (n : Nat) : Float :=
  let x : UInt64 := (n.toUInt64 + 1) * 0x9E3779B97F4A7C15
  let x := (x ^^^ (x >>> 30)) * 0xBF58476D1CE4E5B9
  let x := (x ^^^ (x >>> 27)) * 0x94D049BB133111EB
  ((x ^^^ (x >>> 31)) >>> 11).toFloat / 9007199254740992.0

/-- A supply whose labels count the instances, with pseudo random numbers. -/
def standard : Supply where
  labels n := hexLabel (n + 1)
  born := 0
  numbers := scattered
  drawn := 0

end Supply

end TinyScript
