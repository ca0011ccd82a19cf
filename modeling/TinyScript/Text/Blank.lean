import TinyScript.Text.Character

/-!
# White space around texts

The characters of the Unicode property White_Space, and trimming them off both ends.
-/

namespace TinyScript.Text

/-- The characters with the property White_Space. -/
def isBlankChar (c : Char) : Bool :=
  let n := c.toNat
  (9 ≤ n && n ≤ 13) || n == 0x20 || n == 0x85 || n == 0xA0 || n == 0x1680
    || (0x2000 ≤ n && n ≤ 0x200A) || n == 0x2028 || n == 0x2029 || n == 0x202F || n == 0x205F
    || n == 0x3000

/-- Whether a character of a text is white space; a stray byte is not. -/
def isBlankCharacter : Character → Bool
  | .scalar c => isBlankChar c
  | .stray _ => false

/-- The part of a text that is left without the white space around it, as far as the text is read:
where reading goes on, where the part begins, and where it ends. -/
structure Extent where
  next : Nat
  first : Nat
  stop : Nat

/-- Read one more character. The part begins behind the white space in front, and ends behind the
last character that is none. -/
def Extent.add (e : Extent) (c : Character) : Extent :=
  let next := e.next + c.width
  if isBlankCharacter c then ⟨next, if e.stop = 0 then next else e.first, e.stop⟩
  else ⟨next, e.first, next⟩

/-- A text without the white space at both ends. -/
def trim (t : Text) : Text :=
  let e := t.fold Extent.add ⟨0, 0, 0⟩
  t.cut e.first e.stop

end TinyScript.Text
