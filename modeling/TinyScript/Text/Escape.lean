import TinyScript.Text.Blank
import TinyScript.Text.Hex
import TinyScript.Text.Printable

/-!
# Escaped texts

Texts in messages for people are written so that they stay on one line and nothing in them is
invisible. A quotation puts the text in quotation marks and shows every byte that is no character.
A field of a log line is quoted only if its end could not be seen otherwise.
-/

namespace TinyScript.Text

/-- The letter of the short escape of a control character. -/
def shortEscape? (c : Char) : Option Char :=
  match c.toNat with
  | 7 => some 'a'
  | 8 => some 'b'
  | 9 => some 't'
  | 10 => some 'n'
  | 11 => some 'v'
  | 12 => some 'f'
  | 13 => some 'r'
  | _ => none

/-- The escape of a character by its code, in two, four or eight digits. -/
def escapeByCode (c : Char) : List Char :=
  if c.toNat < 0x20 then '\\' :: 'x' :: hexDigits 2 c.toNat
  else if c.toNat < 0x10000 then '\\' :: 'u' :: hexDigits 4 c.toNat
  else '\\' :: 'U' :: hexDigits 8 c.toNat

/-- The escape of a character that is not printable. -/
def escapeHidden (c : Char) : List Char :=
  match shortEscape? c with
  | some letter => ['\\', letter]
  | none => escapeByCode c

/-- A character inside a quotation. -/
def quoteCharacter : Character → List Char
  | .stray b => '\\' :: 'x' :: hexDigits 2 b.toNat
  | .scalar c =>
    if c = '"' ∨ c = '\\' then ['\\', c]
    else if isPrintable c then [c]
    else if c.toNat = 0x7F then '\\' :: 'x' :: hexDigits 2 c.toNat
    else escapeHidden c

/-- A text in quotation marks. -/
def quote (t : Text) : Text := ofChars ('"' :: (t.characters.flatMap quoteCharacter ++ ['"']))

/-- A character of a log line, with a backslash in front of quotation marks if asked. -/
def logChar (escapeQuotes : Bool) (c : Char) : List Char :=
  if escapeQuotes && c == '"' then ['\\', '"'] else if isPrintable c then [c] else escapeHidden c

/-- Whether a log line shows a character as it is. -/
def isLogPlain (c : Char) : Bool := isPrintable c && c != '"'

/-- A text within a log line. If something in it is escaped, stray bytes are shown as the
replacement character; otherwise it stays as it is. -/
def logText (escapeQuotes : Bool) (t : Text) : Text :=
  if t.chars.all isLogPlain then t else ofChars (t.chars.flatMap (logChar escapeQuotes))

/-- Whether a character forces quotation marks around a field of a log line. -/
def needsQuotes : Character → Bool
  | .stray _ => true
  | .scalar c =>
    c == '"' || c == '=' || c == Character.replacement || isBlankChar c || !isPrintable c

/-- A field of a log line that has no line feed. -/
def logField (t : Text) : Text :=
  if t.isEmpty then "\"\""
  else if t.characters.any needsQuotes then "\"" ++ logText true t ++ "\""
  else t

end TinyScript.Text
