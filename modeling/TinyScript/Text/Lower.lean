import TinyScript.Text.Case

/-!
# Lower case

Lower case looks at words: a capital sigma inside a word becomes a final sigma unless, after at most
thirty characters that casing ignores, a letter follows. Bytes that are no character end a word.

A text is lowered in windows. A window ends where its bytes or the room for the result run out, or
where what follows a sigma lies beyond its bytes, and a new window begins outside of words. So in
texts longer than a window a sigma next to its border may be taken for the beginning of a word.
-/

namespace TinyScript.Text

/-- What is read at once: a character, or bytes that are part of none. -/
inductive Piece where
  | whole (c : Char)
  | broken (bytes : List UInt8)
deriving DecidableEq

namespace Piece

/-- The bytes of a piece. -/
def bytes : Piece → List UInt8
  | whole c => String.utf8EncodeChar c
  | broken bs => bs

/-- The number of bytes of a piece. -/
def width : Piece → Nat
  | whole c => c.utf8Size
  | broken bs => bs.length

/-- Whether a piece is a letter with a case. -/
def isCased : Piece → Bool
  | whole c => Text.isCased (.scalar c)
  | broken _ => false

/-- Whether casing looks past a piece. -/
def isCaseIgnorable : Piece → Bool
  | whole c => Text.isCaseIgnorable (.scalar c)
  | broken _ => false

/-- Whether a piece ends a word. -/
def endsWord (p : Piece) : Bool := !p.isCased && !p.isCaseIgnorable

/-- The bytes of the lower case of a piece by itself. -/
def lowerBytes : Piece → List UInt8
  | whole c => (lowerChar c).flatMap String.utf8EncodeChar
  | broken bs => bs

end Piece

/-- How many bytes a character has that begins with a byte. -/
def announced (b : UInt8) : Nat :=
  if b < 0xC2 then 1 else if b < 0xE0 then 2 else if b < 0xF0 then 3 else if b < 0xF8 then 4 else 1

/-- The piece at the beginning of the bytes of a window. Where bytes are missing there is none, or
in the last window the first byte alone. A character that is broken off has the bytes up to
there. -/
def windowPiece? (final : Bool) : List UInt8 → Option Piece
  | [] => none
  | b :: rest =>
    if (rest.take 3).length + 1 < announced b then (if final then some (.broken [b]) else none)
    else
      let more := (rest.take (announced b - 1)).takeWhile Character.isContinuation
      match Character.decode? b more with
      | some c => some (.whole c)
      | none => some (.broken (b :: more))

/-- Why a window ends: all bytes are taken, more bytes are needed, or more room is. -/
inductive WindowEnd where
  | complete
  | needsBytes
  | needsRoom
deriving DecidableEq

/-- What a window comes to: the text written, how many bytes were taken, and why it ended. -/
structure Window where
  written : Text
  taken : Nat
  ending : WindowEnd

/-- How many characters that casing ignores are looked past after a capital sigma. -/
def lookahead : Nat := 30

/-- Look past characters that casing ignores: whether a letter follows, and the characters looked
past, which stay as they are. -/
def letterFollows (final : Bool) :
    Nat → Nat → List UInt8 → List UInt8 → Except WindowEnd (Bool × List UInt8)
  | 0, _, _, passed => .ok (false, passed)
  | n + 1, room, rest, passed =>
    if rest.isEmpty then (if final then .ok (false, passed) else .error .needsBytes)
    else
      match windowPiece? final rest with
      | none => .error .needsBytes
      | some c =>
        if !c.isCaseIgnorable then .ok (c.isCased, passed)
        else if room < c.width then .error .needsRoom
        else letterFollows final n (room - c.width) (rest.drop c.width) (passed ++ c.bytes)

/-- Lower the bytes of a window. `inWord` tells whether a letter came before without a break since;
`written` is the result so far. -/
def lowerWindow (final : Bool) : Nat → Bool → Nat → List UInt8 → Text → Nat → Window
  | 0, _, _, _, written, taken => ⟨written, taken, .complete⟩
  | fuel + 1, inWord, room, rest, written, taken =>
    if rest.isEmpty then ⟨written, taken, .complete⟩
    else
      match windowPiece? final rest with
      | none => ⟨written, taken, .needsBytes⟩
      | some c =>
        if inWord && c = .whole 'Σ' then
          if room < c.width then ⟨written, taken, .needsRoom⟩
          else
            match letterFollows final (lookahead + 1) (room - c.width) (rest.drop c.width) [] with
            | .error ending => ⟨written, taken, ending⟩
            | .ok (follows, passed) =>
              let bytes := String.utf8EncodeChar (if follows then 'σ' else 'ς') ++ passed
              lowerWindow final fuel true (room - bytes.length) (rest.drop bytes.length)
                (written.pushBytes bytes) (taken + bytes.length)
        else
          let bytes := c.lowerBytes
          if room < bytes.length then ⟨written, taken, .needsRoom⟩
          else
            lowerWindow final fuel (if inWord then !c.endsWord else c.isCased) (room - bytes.length)
              (rest.drop c.width) (written.pushBytes bytes) (taken + c.width)

/-- The bytes of a window, and at first the room for its result. -/
def windowSize : Nat := 128

/-- The next larger size. -/
def grown (n : Nat) : Nat := if n ≤ 32 then 64 else if n ≤ 256 then 2 * n else n + n / 2

/-- The window of at most `size` bytes at the beginning of what is left, with room for a number of
bytes; it is the last one if nothing is left behind it. -/
def nextWindow (size room : Nat) (rest : List UInt8) : Window :=
  lowerWindow (rest.drop size).isEmpty (size + 1) false room (rest.take size) empty 0

/-- Lower the rest of a text behind what is written already, with room for `capacity` bytes in all
and windows of `size` bytes. What is too small to go on grows. -/
def lowerRest : Nat → Nat → Nat → Text → List UInt8 → Text
  | 0, _, _, written, _ => written
  | fuel + 1, capacity, size, written, rest =>
    let w := nextWindow size (capacity - written.size) rest
    let rest := rest.drop w.taken
    if w.ending = .complete ∧ rest.isEmpty then written ++ w.written
    else
      let capacity := if w.ending = .needsRoom ∧ w.written.isEmpty then grown capacity else capacity
      let size := if w.ending = .needsBytes ∧ w.taken = 0 then grown size else size
      lowerRest fuel capacity size (written ++ w.written) rest

/-- Lower a text window by window as long as nothing changes, and its rest from there on. The room
starts out as one window, or as what the whole text takes if that is needed for the part before. -/
def lowerFirst (total : Nat) : Nat → Text → List UInt8 → Text
  | 0, same, rest => same ++ ofBytes rest
  | fuel + 1, same, rest =>
    let w := nextWindow windowSize windowSize rest
    let after := rest.drop w.taken
    if w.ending = .complete ∧ after.isEmpty then same ++ w.written
    else if w.written.bytes = rest.take w.taken ∧ w.taken ≠ 0 ∧ w.ending ≠ .needsRoom then
      lowerFirst total fuel (same ++ w.written) after
    else
      let capacity :=
        if !same.isEmpty && windowSize < same.size + w.written.size then
          total + w.written.size - w.taken
        else windowSize
      lowerRest (4 * total + windowSize) capacity windowSize (same ++ w.written) after

/-- The lower case of a text. -/
def toLower (t : Text) : Text := lowerFirst t.size (t.size + 1) empty t.bytes

end TinyScript.Text
