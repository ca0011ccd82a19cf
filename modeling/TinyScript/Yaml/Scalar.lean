import TinyScript.Text.Hex
import TinyScript.Yaml.Reader

/-!
# Scalars

The three written forms of scalars. Plain ones end where something else could begin; quoted ones end
at their quotation mark; block ones are indented lines. In the first two, line ends are folded.

Characters that are read already are kept newest first.
-/

namespace TinyScript.Yaml

open Read

/-- Whether a character with the one behind it ends a plain scalar. -/
def endsPlain (inFlow : Bool) (c next : Char) : Bool :=
  (c == ':' && isSpaceOrEnd next) ||
    (inFlow && (c == ',' || c == '?' || c == '[' || c == ']' || c == '\x7b' || c == '\x7d'))

/-- The characters of a plain scalar up to a gap or its end. -/
def plainWord (inFlow : Bool) : Nat → List Char → Read (List Char)
  | 0, _ => failure
  | fuel + 1, done => do
    let c ← look 0
    if isSpaceOrEnd c || endsPlain inFlow c (← look 1) then return done
    else
      skip
      need 2
      plainWord inFlow fuel (c :: done)

/-- Read a plain scalar, of which some characters and a gap are read already. It goes on over lines
that are indented by `indent` or stand in brackets. The answer tells as well whether it ended at the
beginning of a line. -/
def readPlain (inFlow : Bool) (indent : Nat) : Nat → List Char → Gap → Read (List Char × Bool)
  | 0, _, _ => failure
  | fuel + 1, done, gap => do
    need 4
    if (← atMark) || (← look 0) == '#' then return (done, gap.broken)
    else
      let word ← plainWord inFlow (← steps) []
      let done := if word.isEmpty then done else word ++ gap.folded ++ done
      let gap := if word.isEmpty then gap else Gap.none
      if !isSpace (← look 0) then return (done, gap.broken)
      else
        let gap ← Gap.read indent (← steps) gap
        if !inFlow && (← column) < indent then return (done, gap.broken)
        else readPlain inFlow indent fuel done gap

/-- The character of an escape without digits. -/
def escaped? (c : Char) : Option Char :=
  match c with
  | '0' => some (Char.ofNat 0)
  | 'a' => some (Char.ofNat 7)
  | 'b' => some (Char.ofNat 8)
  | 't' | '\t' => some '\t'
  | 'n' => some '\n'
  | 'v' => some (Char.ofNat 11)
  | 'f' => some (Char.ofNat 12)
  | 'r' => some '\r'
  | 'e' => some (Char.ofNat 27)
  | ' ' => some ' '
  | '"' => some '"'
  | '\x27' => some '\x27'
  | '\\' => some '\\'
  | 'N' => some (Char.ofNat 0x85)
  | '_' => some (Char.ofNat 0xA0)
  | 'L' => some (Char.ofNat 0x2028)
  | 'P' => some (Char.ofNat 0x2029)
  | _ => none

/-- How many digits follow the letter of an escape. -/
def escapeDigits (c : Char) : Nat :=
  match c with
  | 'x' => 2
  | 'u' => 4
  | 'U' => 8
  | _ => 0

/-- The character whose code is given in hexadecimal digits. -/
def charOfHex? (digits : List Char) : Option Char :=
  match digits.mapM (Text.digitIn? 16) with
  | none => none
  | some ds =>
    let n := ds.foldl (fun n d => 16 * n + d) 0
    if n.isValidChar then some (Char.ofNat n) else none

/-- Read an escape, its backslash included. -/
def readEscape : Read Char := do
  let letter ← look 1
  skipMany 2
  match escapeDigits letter with
  | 0 => StateT.lift (escaped? letter)
  | n =>
    need n
    let c ← StateT.lift (charOfHex? ((← get).ready.take n))
    skipMany n
    return c

/-- Read a piece of a quoted scalar, up to a gap, the closing mark or the end of the document. The
answer tells as well whether it ended with a line end that is escaped. -/
def readPiece (single : Bool) : Nat → List Char → Read (List Char × Bool)
  | 0, _ => failure
  | fuel + 1, done => do
    let c ← look 0
    let next ← look 1
    if isSpaceOrEnd c then return (done, false)
    else if single && c == '\x27' then
      if next == '\x27' then
        skipMany 2
        need 2
        readPiece single fuel (c :: done)
      else return (done, false)
    else if !single && c == '"' then return (done, false)
    else if !single && c == '\\' && isBreak next then
      need 3
      skip
      let _ ← takeLine
      return (done, true)
    else if !single && c == '\\' then
      let c ← readEscape
      need 2
      readPiece single fuel (c :: done)
    else
      skip
      need 2
      readPiece single fuel (c :: done)

/-- Read a quoted scalar behind its opening mark. -/
def readQuoted (single : Bool) : Nat → List Char → Read (List Char)
  | 0, _ => failure
  | fuel + 1, done => do
    need 4
    if (← atMark) || (← look 0) == endChar then failure
    else
      let (done, escaped) ← readPiece single (← steps) done
      need 1
      if (← look 0) == (if single then '\x27' else '"') then
        skip
        return done
      else
        let gap ← Gap.read 0 (← steps) (if escaped then Gap.silent else Gap.none)
        readQuoted single fuel (gap.folded ++ done)

/-- What happens to the line ends at the end of a block scalar. -/
inductive Chomping where
  | strip
  | clip
  | keep
deriving DecidableEq

/-- The indicators of a block scalar: what happens at its end, and the indentation, zero if it is
to be found out. -/
structure BlockHeader where
  chomping : Chomping
  increment : Nat

/-- The chomping that a character stands for. -/
def chomping? (c : Char) : Option Chomping :=
  if c = '+' then some .keep else if c = '-' then some .strip else none

/-- Take a chomping indicator if there is one. -/
def readChomping : Read (Option Chomping) := do
  need 1
  match chomping? (← look 0) with
  | some chomping =>
    skip
    return some chomping
  | none => return none

/-- Take an indentation indicator if there is one; zero is refused. -/
def readIncrement : Read Nat := do
  need 1
  match Text.digitIn? 10 (← look 0) with
  | some 0 => failure
  | some n =>
    skip
    return n
  | none => return 0

/-- Read the indicators of a block scalar, in either order. -/
def readHeader : Read BlockHeader := do
  match ← readChomping with
  | some chomping => return ⟨chomping, ← readIncrement⟩
  | none =>
    match ← readIncrement with
    | 0 => return ⟨.clip, 0⟩
    | n => return ⟨(← readChomping).getD .clip, n⟩

/-- Go past spaces of indentation: up to column `indent`, or all of them if that is zero. -/
def skipIndent (indent : Nat) : Nat → Read Unit
  | 0 => failure
  | fuel + 1 => do
    need 1
    if (indent == 0 || (← column) < indent) && (← look 0) == ' ' then
      skip
      skipIndent indent fuel
    else return ()

/-- Read empty lines in front of a line of a block scalar, and its indentation. The answer is the
deepest column seen and the line ends. -/
def readEmptyLines (indent : Nat) : Nat → Nat → List Char → Read (Nat × List Char)
  | 0, _, _ => failure
  | fuel + 1, deepest, done => do
    skipIndent indent (← steps)
    let deepest := max deepest (← column)
    let c ← look 0
    if (indent == 0 || (← column) < indent) && c == '\t' then failure
    else if isBreak c then
      need 2
      let cs ← takeLine
      readEmptyLines indent fuel deepest (cs ++ done)
    else return (deepest, done)

/-- The lines of a block scalar as they are put together: the text so far, the line end behind the
last line, the empty lines behind that, and whether the last line began with a blank. -/
structure BlockLines where
  done : List Char
  first : List Char
  more : List Char
  blank : Bool

/-- What stands between the lines so far and the next one. In a folded scalar a line end between two
lines without leading blanks becomes a space, or nothing if empty lines follow it. -/
def BlockLines.joined (literal : Bool) (b : BlockLines) (blank : Bool) : List Char :=
  if !literal && !b.blank && !blank && b.first == ['\n'] then
    (if b.more.isEmpty then [' '] else b.more) ++ b.done
  else b.more ++ b.first ++ b.done

/-- Read the lines of a block scalar that are indented by `indent`. -/
def readBlockLines (literal : Bool) (indent : Nat) : Nat → BlockLines → Read BlockLines
  | 0, _ => failure
  | fuel + 1, b => do
    let c ← look 0
    if (← column) != indent || c == endChar then return b
    else
      let done ← takeWhile (fun c => !isBreakOrEnd c) (← steps) (b.joined literal (isBlank c))
      need 2
      let first ← takeLine
      let (_, more) ← readEmptyLines indent (← steps) 0 []
      readBlockLines literal indent fuel ⟨done, first, more, isBlank c⟩

/-- Read a block scalar behind its first mark; `around` is the indentation around it, if any. -/
def readBlock (literal : Bool) (around : Option Nat) : Read (List Char) := do
  let header ← readHeader
  skipWhile isBlank
  if (← look 0) == '#' then skipWhile fun c => !isBreakOrEnd c
  if !isBreakOrEnd (← look 0) then failure
  if isBreak (← look 0) then
    need 2
    let _ ← takeLine
  let given := if header.increment == 0 then 0 else around.getD 0 + header.increment
  let (deepest, more) ← readEmptyLines given (← steps) 0 []
  let indent :=
    if given == 0 then max deepest (max ((around.map (· + 1)).getD 0) 1) else given
  let b ← readBlockLines literal indent (← steps) ⟨[], [], more, false⟩
  match header.chomping with
  | .strip => return b.done
  | .clip => return b.first ++ b.done
  | .keep => return b.more ++ b.first ++ b.done

end TinyScript.Yaml
