import TinyScript.Text.Character
import TinyScript.Text.Hex

/-!
# Quoted texts

The quoted form of texts in JSON: quotation marks around it, a backslash before quotation marks and
backslashes, short escapes for common control characters, and four hexadecimal digits for the other
ones and for characters that a web page could take for markup or line ends. A stray byte is
written as the replacement character.
-/

namespace TinyScript.Text

/-- The escape of a character by its code. -/
def escapeCode (n : Nat) : List Char := '\\' :: 'u' :: hexDigits 4 n

/-- Whether a character is escaped by its code. -/
def needsCode (c : Char) : Bool :=
  c.toNat < 0x20 || c == '<' || c == '>' || c == '&' || c.toNat == 0x2028 || c.toNat == 0x2029

/-- A character inside quotation marks. -/
def jsonCharacter : Character → List Char
  | .stray _ => [Character.replacement]
  | .scalar c =>
    if c = '"' then ['\\', '"']
    else if c = '\\' then ['\\', '\\']
    else if c.toNat = 8 then ['\\', 'b']
    else if c.toNat = 12 then ['\\', 'f']
    else if c = '\n' then ['\\', 'n']
    else if c = '\r' then ['\\', 'r']
    else if c = '\t' then ['\\', 't']
    else if needsCode c then escapeCode c.toNat
    else [c]

/-- A text as a JSON string. -/
def toJson (t : Text) : Text := ofChars ('"' :: (t.characters.flatMap jsonCharacter ++ ['"']))

end TinyScript.Text
