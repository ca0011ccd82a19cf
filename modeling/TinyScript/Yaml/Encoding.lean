import TinyScript.Text.Character

/-!
# Encodings

The bytes of a document are UTF-8 or one of the two byte orders of UTF-16, as a mark at the very
beginning tells. They are decoded in blocks. A block gives the characters that are complete in it
and leaves the bytes of the last one if that is not; a block with anything that is no character, or
a character that documents may not hold, gives nothing at all.
-/

namespace TinyScript.Yaml

/-- How characters are written as bytes. -/
inductive Encoding where
  | utf8
  | utf16Little
  | utf16Big
deriving DecidableEq, Inhabited

/-- The encoding that the mark at the beginning tells, and how many bytes the mark has. -/
def Encoding.ofMark : List UInt8 → Encoding × Nat
  | 0xFF :: 0xFE :: _ => (.utf16Little, 2)
  | 0xFE :: 0xFF :: _ => (.utf16Big, 2)
  | 0xEF :: 0xBB :: 0xBF :: _ => (.utf8, 3)
  | _ => (.utf8, 0)

/-- Whether a document may hold a character. -/
def isAllowed (c : Char) : Bool :=
  let n := c.toNat
  n == 9 || n == 10 || n == 13 || (0x20 ≤ n && n ≤ 0x7E) || n == 0x85 ||
    (0xA0 ≤ n && n ≤ 0xFFFD) || 0x10000 ≤ n

/-- What the beginning of some bytes is: a character of so many bytes, a part of one, or nothing
that can be read. -/
inductive Decoded where
  | char (c : Char) (width : Nat)
  | partOfChar
  | unreadable

namespace Decoded

/-- How many bytes a character in UTF-8 has that begins with a byte; zero if none does. -/
def utf8Width (b : UInt8) : Nat :=
  if b < 0x80 then 1
  else if b < 0xC0 then 0
  else if b < 0xE0 then 2
  else if b < 0xF0 then 3
  else if b < 0xF8 then 4
  else 0

/-- The first character of bytes in UTF-8. -/
def ofUtf8 (b : UInt8) (rest : List UInt8) : Decoded :=
  if utf8Width b = 0 then unreadable
  else if (rest.take 3).length + 1 < utf8Width b then partOfChar
  else
    match Character.decode? b rest with
    | some c => char c (utf8Width b)
    | none => unreadable

/-- The number that two bytes stand for. -/
def pair (big : Bool) (a b : UInt8) : Nat :=
  if big then a.toNat * 256 + b.toNat else b.toNat * 256 + a.toNat

/-- The first character of bytes in UTF-16. -/
def ofUtf16 (big : Bool) : List UInt8 → Decoded
  | a :: b :: rest =>
    let n := pair big a b
    if n / 0x400 = 0x37 then unreadable
    else if n / 0x400 = 0x36 then
      match rest with
      | c :: d :: _ =>
        let m := pair big c d
        if m / 0x400 = 0x37 then char (Char.ofNat (0x10000 + n % 0x400 * 0x400 + m % 0x400)) 4
        else unreadable
      | _ => partOfChar
    else char (Char.ofNat n) 2
  | _ => partOfChar

/-- The first character of some bytes. -/
def first (e : Encoding) (b : UInt8) (rest : List UInt8) : Decoded :=
  match e with
  | .utf8 => ofUtf8 b rest
  | .utf16Little => ofUtf16 false (b :: rest)
  | .utf16Big => ofUtf16 true (b :: rest)

end Decoded

/-- Decode the bytes of a block: its characters, and the bytes of a last one that is not complete.
`done` holds what is decoded already, newest first, and `fuel` is at least the number of bytes. -/
def decodeBlock (e : Encoding) :
    Nat → List Char → List UInt8 → Option (List Char × List UInt8)
  | _, done, [] => some (done.reverse, [])
  | 0, done, bytes => some (done.reverse, bytes)
  | fuel + 1, done, b :: rest =>
    match Decoded.first e b rest with
    | .partOfChar => some (done.reverse, b :: rest)
    | .unreadable => none
    | .char c width =>
      if isAllowed c then decodeBlock e fuel (c :: done) ((b :: rest).drop width) else none

end TinyScript.Yaml
