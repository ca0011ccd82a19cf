import TinyScript.Source.Position

/-!
# Cursors

A cursor is what is left of a program text together with the place where that begins. Moving
forward takes bytes off the front, so the place is always the one of the bytes passed so far.
-/

namespace TinyScript

/-- The unread rest of a text and the place where it begins. -/
structure Cursor where
  rest : List UInt8
  pos : Position
deriving DecidableEq, Inhabited

namespace Cursor

/-- A cursor at the beginning of a text. -/
def ofText (t : Text) : Cursor := ⟨t.bytes, Position.start⟩

/-- Move forward by a number of bytes, at most to the end. -/
def advance : Nat → Cursor → Cursor
  | 0, c => c
  | _ + 1, ⟨[], p⟩ => ⟨[], p⟩
  | n + 1, ⟨b :: rest, p⟩ => advance n ⟨rest, p.step b⟩

/-- The unread text. -/
def remaining (c : Cursor) : Text := Text.ofBytes c.rest

/-- Whether everything has been read. -/
def atEnd (c : Cursor) : Bool := c.rest.isEmpty

/-- The next character as a text, empty at the end. -/
def peek (c : Cursor) : Text :=
  match c.rest with
  | [] => Text.empty
  | b :: rest => Text.ofBytes (Character.read b rest).bytes

/-- The place after an advance is the place of the bytes passed. -/
theorem advance_eq (n : Nat) (c : Cursor) :
    advance n c = ⟨c.rest.drop n, c.pos.after (c.rest.take n)⟩ := by
  induction n generalizing c with
  | zero => simp [advance, Position.after]
  | succ n ih =>
    obtain ⟨rest, p⟩ := c
    cases rest with
    | nil => simp [advance, Position.after]
    | cons b rest => simp [advance, ih, Position.after]

end Cursor

end TinyScript
