import TinyScript.Text.CaseData
import TinyScript.Text.Character
import TinyScript.Text.Range

/-!
# Upper and lower case

Case mapping is by full Unicode mappings, so one character may become several. Upper case maps
every character by itself; lower case, which also looks at words, has a module of its own. Stray
bytes stay as they are.
-/

namespace TinyScript.Text

/-- Where a run of mappings sends a code point. -/
def CaseRun.map? (r : CaseRun) (n : Nat) : Option Nat :=
  if r.first ≤ n ∧ n ≤ r.last ∧ (n - r.first) % r.stride = 0 then some (n + r.shift).toNat else none

/-- The listed sequence of a code point. -/
def sequence? (sequences : Array (Nat × List Nat)) (n : Nat) : Option (List Nat) :=
  match lastAtMost Prod.fst sequences n with
  | some entry => if entry.1 = n then some entry.2 else none
  | none => none

/-- The mapping of a character by listed sequences and runs. -/
def mapCase (sequences : Array (Nat × List Nat)) (runs : Array CaseRun) (c : Char) : List Char :=
  match sequence? sequences c.toNat with
  | some ns => ns.map Char.ofNat
  | none =>
    match (lastAtMost CaseRun.first runs c.toNat).bind fun r => r.map? c.toNat with
    | some n => [Char.ofNat n]
    | none => [c]

/-- The lower case of a character by itself. -/
def lowerChar (c : Char) : List Char := mapCase lowerSequences lowerRuns c

/-- The upper case of a character. -/
def upperChar (c : Char) : List Char := mapCase upperSequences upperRuns c

/-- The lower case of a character if it may be one character only. -/
def lowerSimple (c : Char) : Char :=
  match lowerChar c with
  | d :: _ => d
  | [] => c

/-- A text with every character in lower case by itself, for comparison with known words; a stray
byte becomes the replacement character. -/
def folded (t : Text) : Text := ofChars (t.chars.map lowerSimple)

/-- Whether a character has case. -/
def isCased : Character → Bool
  | .scalar c => inRanges casedRanges c.toNat
  | .stray _ => false

/-- Whether casing looks past a character. -/
def isCaseIgnorable : Character → Bool
  | .scalar c => inRanges ignorableRanges c.toNat
  | .stray _ => false

/-- A text with the upper case of one more character. -/
def pushUpper (out : Text) : Character → Text
  | .scalar c => (upperChar c).foldl pushChar out
  | .stray b => ⟨out.data.push b⟩

/-- The upper case of a text. -/
def toUpper (t : Text) : Text := t.fold pushUpper empty

end TinyScript.Text
