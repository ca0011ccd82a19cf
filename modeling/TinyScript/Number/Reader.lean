import TinyScript.Number.Decimal
import TinyScript.Text.Hex

/-!
# Reading numbers

Integers are read with an optional sign, in decimal, or after a leading zero and possibly a letter
in base two, eight or sixteen. Decimal numbers may have a point and an exponent; hexadecimal ones
must have a binary exponent. In all of them a single underscore may stand between digits.
-/

namespace TinyScript.Number

/-- Why a text is not read as a number. -/
inductive ReadFault where
  | notNumber
  | outOfRange
deriving DecidableEq, Inhabited

/-- Take an optional sign off; the first part tells whether it is a minus sign. -/
def takeSign : List Char → Bool × List Char
  | '-' :: rest => (true, rest)
  | '+' :: rest => (false, rest)
  | cs => (false, cs)

/-- A letter without its case; other characters stay. -/
def smallLetter (c : Char) : Char := if 'A' ≤ c ∧ c ≤ 'Z' then Char.ofNat (c.toNat + 32) else c

/-- What stands before an underscore or at its place. -/
inductive Neighbour where
  | nothing
  | digit
  | underscore
deriving DecidableEq

/-- Whether every underscore stands right after a digit and right before one. -/
def underscoresFrom (hex : Bool) : Neighbour → List Char → Bool
  | before, [] => before ≠ .underscore
  | before, c :: rest =>
    if (Text.digitIn? (if hex then 16 else 10) c).isSome then underscoresFrom hex .digit rest
    else if c = '_' then before = .digit && underscoresFrom hex .underscore rest
    else before ≠ .underscore && underscoresFrom hex .nothing rest

/-- Whether the underscores of a number without sign are placed well; the mark of a base counts as
a digit. -/
def underscoresFit : List Char → Bool
  | '0' :: c :: rest =>
    if smallLetter c = 'x' then underscoresFrom true .digit rest
    else if smallLetter c = 'b' ∨ smallLetter c = 'o' then underscoresFrom false .digit rest
    else underscoresFrom false .nothing ('0' :: c :: rest)
  | cs => underscoresFrom false .nothing cs

/-- The base that a number without sign is written in, and its digits. -/
def baseOf : List Char → Nat × List Char
  | '0' :: c :: d :: rest =>
    if smallLetter c = 'b' then (2, d :: rest)
    else if smallLetter c = 'o' then (8, d :: rest)
    else if smallLetter c = 'x' then (16, d :: rest)
    else (8, c :: d :: rest)
  | '0' :: rest => (8, rest)
  | cs => (10, cs)

/-- The largest unsigned integer of sixty-four bits. -/
def maxUnsigned : Nat := 0xFFFFFFFFFFFFFFFF

/-- Add digits to a number, passing over underscores; the first fault from the left counts. -/
def addDigits (base : Nat) : Nat → List Char → Except ReadFault Nat
  | n, [] => .ok n
  | n, c :: rest =>
    if c = '_' then addDigits base n rest
    else
      match Text.digitIn? base c with
      | none => .error .notNumber
      | some d =>
        if maxUnsigned < n * base + d then .error .outOfRange
        else addDigits base (n * base + d) rest

/-- Read digits of one base, with nothing else among them. -/
def readDigits (base : Nat) (cs : List Char) : Except ReadFault Nat :=
  if cs.isEmpty ∨ '_' ∈ cs then .error .notNumber else addDigits base 0 cs

/-- Read an unsigned integer of sixty-four bits in any base. -/
def readUnsigned (cs : List Char) : Except ReadFault Nat :=
  if cs.isEmpty then .error .notNumber
  else
    match addDigits (baseOf cs).1 0 (baseOf cs).2 with
    | .error fault => .error fault
    | .ok n => if '_' ∈ cs ∧ ¬ underscoresFit cs then .error .notNumber else .ok n

/-- Give a magnitude its sign, if the result has sixty-four bits. -/
def withSign (negative : Bool) (n : Nat) : Except ReadFault Int :=
  if negative then (if n ≤ 0x8000000000000000 then .ok (-(n : Int)) else .error .outOfRange)
  else (if n < 0x8000000000000000 then .ok n else .error .outOfRange)

/-- Read a signed integer of sixty-four bits in any base. -/
def readInteger (cs : List Char) : Except ReadFault Int :=
  match readUnsigned (takeSign cs).2 with
  | .error fault => .error fault
  | .ok n => withSign (takeSign cs).1 n

/-- Digits around at most one point: their value without the point, how many there are, how many
follow the point, and what comes after them. -/
structure Mantissa where
  value : Nat
  digits : Nat
  places : Nat
  rest : List Char

/-- Read the digits of a mantissa, passing over underscores. -/
def readMantissa (base : Nat) (value digits : Nat) (places : Option Nat) : List Char → Mantissa
  | [] => ⟨value, digits, places.getD 0, []⟩
  | c :: rest =>
    if c = '_' then readMantissa base value digits places rest
    else if c = '.' ∧ places = none then readMantissa base value digits (some 0) rest
    else
      match Text.digitIn? base c with
      | some d => readMantissa base (value * base + d) (digits + 1) (places.map (· + 1)) rest
      | none => ⟨value, digits, places.getD 0, c :: rest⟩

/-- An exponent beyond which every number is zero or too large. -/
def exponentBound : Nat := 10000

/-- Add the digits of an exponent, which stops growing once it is large. -/
def addExponent : Nat → List Char → Option Nat
  | n, [] => some n
  | n, c :: rest =>
    if c = '_' then addExponent n rest
    else
      match Text.digitIn? 10 c with
      | some d => addExponent (if n < exponentBound then n * 10 + d else n) rest
      | none => none

/-- Read an exponent after its mark: a sign and digits, of which the first is no underscore. -/
def readExponent (cs : List Char) : Option Int :=
  match (takeSign cs).2 with
  | [] => none
  | c :: rest =>
    if (Text.digitIn? 10 c).isNone then none
    else (addExponent 0 (c :: rest)).map fun n => if (takeSign cs).1 then -(n : Int) else n

/-- The decimal that a mantissa in decimal digits and what follows it stand for. -/
def decimalOf? (m : Mantissa) : Option Decimal :=
  match m.rest with
  | [] => some ⟨m.value, -(m.places : Int)⟩
  | c :: rest =>
    if smallLetter c = 'e' then (readExponent rest).map fun e => ⟨m.value, e - m.places⟩ else none

/-- The decimal that a hexadecimal mantissa and its binary exponent stand for. -/
def hexadecimalOf? (m : Mantissa) : Option Decimal :=
  match m.rest with
  | [] => none
  | c :: rest =>
    if smallLetter c = 'p' then
      (readExponent rest).map fun e => Decimal.ofBinary m.value (e - 4 * m.places)
    else none

/-- Read an unsigned number with a point or an exponent. -/
def readDecimal? (cs : List Char) : Option Decimal :=
  let hex : Bool := match cs with
    | '0' :: c :: _ :: _ => smallLetter c == 'x'
    | _ => false
  let m := if hex then readMantissa 16 0 0 none (cs.drop 2) else readMantissa 10 0 0 none cs
  if m.digits = 0 ∨ ('_' ∈ cs ∧ ¬ underscoresFit cs) then none
  else if hex then hexadecimalOf? m
  else decimalOf? m

/-- Words for numbers that have no digits. -/
def readSpecial? (cs : List Char) : Option Float :=
  let word := (takeSign cs).2.map smallLetter
  if word = "inf".toList ∨ word = "infinity".toList then
    some (if (takeSign cs).1 then -(1 / 0) else 1 / 0)
  else if cs.map smallLetter = "nan".toList then some (0 / 0)
  else none

/-- Read a number as the nearest double; digits that stand for too large a number are not read. -/
def readFloat? (cs : List Char) : Option Float :=
  match readSpecial? cs with
  | some x => some x
  | none =>
    match readDecimal? (takeSign cs).2 with
    | none => none
    | some d =>
      if d.toFloat.isInf then none else some (if (takeSign cs).1 then -d.toFloat else d.toFloat)

end TinyScript.Number
