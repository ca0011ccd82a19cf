import TinyScript.Text.Character

/-!
# Places in a program text

A place is a line and a column, both counted from one. A line feed starts a new line; every
other byte that begins a character takes one column, and a byte that continues one takes none.
-/

namespace TinyScript

/-- A line and a column of a program text, both counted from one. -/
structure Position where
  line : Nat
  column : Nat
deriving DecidableEq, Inhabited, Repr

namespace Position

/-- Where every text begins. -/
def start : Position := ⟨1, 1⟩

/-- The place after one more byte. -/
def step (p : Position) (b : UInt8) : Position :=
  if b = 0x0A then ⟨p.line + 1, 1⟩
  else if Character.isContinuation b then p
  else ⟨p.line, p.column + 1⟩

/-- The place after the given bytes. -/
def after (p : Position) (bytes : List UInt8) : Position := bytes.foldl step p

/-- How a place is written in messages. -/
def toText (p : Position) : Text :=
  "line " ++ Text.ofNat p.line ++ ", column " ++ Text.ofNat p.column

end Position

end TinyScript
