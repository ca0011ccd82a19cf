import TinyScript.Text.Character

/-!
# Points in time

A point in time is a day, a day and a clock time in some zone, or a day and a clock time without a
zone. The year has four digits; the other numbers have one or two, and those of a zone have two.
-/

namespace TinyScript.Yaml.Timestamp

/-- The digit that a character is. -/
def digit? (c : Char) : Option Nat := if c.isDigit then some (c.toNat - 48) else none

/-- Take a number of one or two digits. -/
def takeNumber : List Char → Option (Nat × List Char)
  | [] => none
  | [c] => (digit? c).map fun n => (n, [])
  | c :: d :: rest =>
    (digit? c).map fun n =>
      match digit? d with
      | some m => (10 * n + m, rest)
      | none => (n, d :: rest)

/-- Take a number of one or two digits below a bound. -/
def takeBelow (bound : Nat) (cs : List Char) : Option (List Char) :=
  match takeNumber cs with
  | some (n, rest) => if n < bound then some rest else none
  | none => none

/-- Take a character. -/
def takeChar (c : Char) : List Char → Option (List Char)
  | d :: rest => if c = d then some rest else none
  | [] => none

/-- Whether a year has a day more. -/
def isLeap (year : Nat) : Bool := year % 4 == 0 && (year % 100 != 0 || year % 400 == 0)

/-- The number of days of a month. -/
def daysIn (year month : Nat) : Nat :=
  if month = 2 then (if isLeap year then 29 else 28)
  else if month = 4 ∨ month = 6 ∨ month = 9 ∨ month = 11 then 30
  else 31

/-- Take a day. -/
def takeDay (cs : List Char) : Option (List Char) := do
  let digits := cs.take 4
  if digits.length = 4 ∧ digits.all Char.isDigit then
    let year := digits.foldl (fun n c => 10 * n + (c.toNat - 48)) 0
    let (month, rest) ← takeNumber (← takeChar '-' (cs.drop 4))
    let (day, rest) ← takeNumber (← takeChar '-' rest)
    if 1 ≤ month ∧ month ≤ 12 ∧ 1 ≤ day ∧ day ≤ daysIn year month then some rest else none
  else none

/-- Take a part of a second, if there is one. -/
def takeFraction : List Char → List Char
  | c :: d :: rest =>
    if (c = '.' ∨ c = ',') ∧ d.isDigit then rest.dropWhile Char.isDigit else c :: d :: rest
  | cs => cs

/-- Take a clock time. -/
def takeClock (cs : List Char) : Option (List Char) := do
  let rest ← takeChar ':' (← takeBelow 24 cs)
  let rest ← takeChar ':' (← takeBelow 60 rest)
  return takeFraction (← takeBelow 60 rest)

/-- Whether two digits stand for a number up to a bound. -/
def isPair (bound : Nat) (c d : Char) : Bool :=
  match digit? c, digit? d with
  | some n, some m => 10 * n + m ≤ bound
  | _, _ => false

/-- Whether characters are a zone: the letter of the standard zone, or a difference to it. -/
def isZone : List Char → Bool
  | ['Z'] => true
  | [sign, a, b, ':', c, d] => (sign == '+' || sign == '-') && isPair 24 a b && isPair 60 c d
  | _ => false

/-- Whether characters are a point in time. -/
def holds (cs : List Char) : Bool :=
  match takeDay cs with
  | none => false
  | some [] => true
  | some (c :: rest) =>
    if c = 'T' ∨ c = 't' then ((takeClock rest).map isZone).getD false
    else if c = ' ' then ((takeClock (rest.dropWhile (· == ' '))).map List.isEmpty).getD false
    else false

end TinyScript.Yaml.Timestamp
