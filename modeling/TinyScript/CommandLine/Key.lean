import TinyScript.Text.Character
import TinyScript.Text.Number

/-!
# Keys

Typed characters as the keys that they stand for. Control characters move in the line that is being
typed or change it, and an escape character begins a sequence of several that stand for one key.
-/

namespace TinyScript.CommandLine

/-- A key. The key `stop` is what comes at the end of the input, and an `idle` key does nothing. -/
inductive Key where
  | char (c : Char)
  | enter
  | stop
  | interrupt
  | delete
  | backspace
  | left
  | right
  | lineStart
  | lineEnd
  | wordLeft
  | wordRight
  | older
  | newer
  | killBefore
  | killAfter
  | killWordBefore
  | killWordAfter
  | yank
  | swap
  | complete
  | clear
  | idle
deriving DecidableEq, Inhabited

namespace Key

/-- The character that begins a sequence. -/
def escape : Char := '\x1b'

/-- The key of a character by itself. -/
def ofChar (c : Char) : Key :=
  match c.toNat with
  | 0 => stop
  | 1 => lineStart
  | 2 => left
  | 3 => interrupt
  | 4 => delete
  | 5 => lineEnd
  | 6 => right
  | 7 => idle
  | 8 => backspace
  | 9 => complete
  | 10 => enter
  | 11 => killAfter
  | 12 => clear
  | 13 => enter
  | 14 => newer
  | 16 => older
  | 18 => idle
  | 19 => idle
  | 20 => swap
  | 21 => killBefore
  | 23 => killWordBefore
  | 25 => yank
  | 26 => idle
  | 127 => backspace
  | _ => char c

/-- The key of a character right behind an escape character. -/
def ofEscaped (c : Char) : Key :=
  if c = 'b' then wordLeft
  else if c = 'f' then wordRight
  else if c = 'd' then killWordAfter
  else if c.toNat = 20 then char Character.replacement
  else if c.toNat = 127 then killWordBefore
  else ofChar c

/-- The key of a sequence by its last character and the digits before it. -/
def ofSequence (digits : List Char) (c : Char) : Key :=
  if c = 'A' then older
  else if c = 'B' then newer
  else if c = 'C' then right
  else if c = 'D' then left
  else if c = 'H' then lineStart
  else if c = 'F' then lineEnd
  else if c = '~' ∧ digits = ['3'] then delete
  else idle

end Key

/-- What may come next among typed characters: any, one behind an escape character, or a part of a
sequence with some digits so far, which only in a `long` one may name a key. -/
inductive Awaited where
  | any
  | escaped
  | sequence (long : Bool) (digits : List Char)
deriving DecidableEq, Inhabited

/-- Take a character: the key that it completes, and what may come next. -/
def Awaited.take (c : Char) : Awaited → Option Key × Awaited
  | any => if c = Key.escape then (none, escaped) else (some (Key.ofChar c), any)
  | escaped =>
    if c = '[' then (none, sequence true [])
    else if c = 'O' then (none, sequence false [])
    else if c = Key.escape then (none, escaped)
    else (some (Key.ofEscaped c), any)
  | sequence long digits =>
    if c = ';' ∨ Text.isNumber c then (none, sequence long (c :: digits))
    else (some (Key.ofSequence (if long then digits else []) c), any)

/-- The keys of typed characters. -/
def keysFrom (a : Awaited) : List Char → List Key
  | [] => []
  | c :: rest =>
    match a.take c with
    | (some k, a) => k :: keysFrom a rest
    | (none, a) => keysFrom a rest

/-- The keys of a typed text. -/
def typedKeys (input : Text) : List Key := keysFrom .any input.chars

end TinyScript.CommandLine
