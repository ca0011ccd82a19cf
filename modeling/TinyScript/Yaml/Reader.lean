import TinyScript.Yaml.Encoding

/-!
# Reading a document

A place in a YAML document, with its line and column. Lines end at a line feed, a carriage return,
both together, or one of the line ends of Unicode.

Blocks are decoded only when characters are needed that are not decoded yet, so what cannot be
decoded does no harm as long as nobody needs to look that far. Behind the last character there are
null characters, which documents cannot hold themselves.
-/

namespace TinyScript.Yaml

/-- A place: the characters decoded and not read, the bytes not decoded, of which the next block has
at most `block`, whether the characters at hand began with a byte order mark when they were last
needed, whether only blanks came since the last line end, and how many lines, columns and characters
are behind. There are fewer than `limit` characters in all. -/
structure Reader where
  ready : List Char
  rest : List UInt8
  encoding : Encoding
  block : Nat
  marked : Bool
  fresh : Bool
  line : Nat
  column : Nat
  offset : Nat
  limit : Nat
deriving Inhabited

/-- The character behind the last one of a document. -/
def endChar : Char := Char.ofNat 0

/-- The byte order mark as a character. -/
def byteOrderMark : Char := Char.ofNat 0xFEFF

/-- Whether a character is a space or a tab. -/
def isBlank (c : Char) : Bool := c == ' ' || c == '\t'

/-- Whether a character is a line end beyond ASCII. -/
def isWideBreak (c : Char) : Bool := c.toNat == 0x85 || c.toNat == 0x2028 || c.toNat == 0x2029

/-- Whether a character ends a line. -/
def isBreak (c : Char) : Bool := c == '\n' || c == '\r' || isWideBreak c

/-- Whether a character ends a line or stands behind the last one. -/
def isBreakOrEnd (c : Char) : Bool := isBreak c || c == endChar

/-- Whether a character separates words. -/
def isSpace (c : Char) : Bool := isBlank c || isBreak c

/-- Whether a character separates words or stands behind the last one. -/
def isSpaceOrEnd (c : Char) : Bool := isSpace c || c == endChar

/-- The line end that a character is read as. -/
def lineEnd (c : Char) : Char := if c.toNat == 0x2028 || c.toNat == 0x2029 then c else '\n'

namespace Reader

/-- How many bytes are decoded at a time, with the mark at the beginning. -/
def blockSize : Nat := 512

/-- The beginning of a document. -/
def start (bytes : List UInt8) : Reader where
  ready := []
  rest := bytes.drop (Encoding.ofMark bytes).2
  encoding := (Encoding.ofMark bytes).1
  block := blockSize - (Encoding.ofMark bytes).2
  marked := false
  fresh := false
  line := 0
  column := 0
  offset := 0
  limit := bytes.length + 8

/-- Whether a number of characters is decoded. -/
def has (r : Reader) (n : Nat) : Bool := n == 0 || !(r.ready.drop (n - 1)).isEmpty

/-- Decode blocks until a number of characters is there, or the end. -/
def fill (n : Nat) : Nat → Reader → Option Reader
  | 0, _ => none
  | fuel + 1, r =>
    if r.has n then some r
    else if r.rest.isEmpty then some { r with ready := r.ready ++ [endChar] }
    else
      match decodeBlock r.encoding r.block [] (r.rest.take r.block) with
      | none => none
      | some ([], _) => none
      | some (cs, left) =>
        fill n fuel
          { r with ready := r.ready ++ cs, rest := left ++ r.rest.drop r.block, block := blockSize }

/-- Have a number of characters decoded. -/
def demand (n : Nat) (r : Reader) : Option Reader :=
  if r.has n then some r
  else (r.fill n (n + 1)).map fun r => { r with marked := r.ready.head? == some byteOrderMark }

/-- Go past a character of the same line. -/
def advance (r : Reader) : Reader :=
  { r with
    ready := r.ready.tail
    fresh := r.fresh && (r.ready.head?.map isBlank).getD false
    column := r.column + 1
    offset := r.offset + 1 }

/-- Go past a line end of so many characters. -/
def advanceLine (r : Reader) (n : Nat) : Reader :=
  { r with
    ready := r.ready.drop n
    fresh := true
    line := r.line + 1
    column := 0
    offset := r.offset + n }

end Reader

/-- Reading, which may fail. -/
abbrev Read := StateT Reader Option

namespace Read

/-- Have a number of characters decoded. -/
def need (n : Nat) : Read Unit := fun r => (r.demand n).map fun r => ((), r)

/-- The character so many places ahead. -/
def look (i : Nat) : Read Char := fun r => some (r.ready.getD i endChar, r)

/-- The column. -/
def column : Read Nat := return (← get).column

/-- More steps than there are characters. -/
def steps : Read Nat := return (← get).limit

/-- Go past a character of the same line. -/
def skip : Read Unit := modify Reader.advance

/-- Go past a number of characters of the same line. -/
def skipMany : Nat → Read Unit
  | 0 => return ()
  | n + 1 => do
    skip
    skipMany n

/-- Go past a line end, which is told as it is read; a carriage return and a line feed are one. -/
def takeLine : Read (List Char) := do
  let c ← look 0
  if c == '\r' && (← look 1) == '\n' then
    modify fun r => r.advanceLine 2
    return ['\n']
  else if isBreak c then
    modify fun r => r.advanceLine 1
    return [lineEnd c]
  else return []

/-- Go past characters of a line as long as they satisfy a condition; they are told newest first in
front of `done`. -/
def takeWhile (p : Char → Bool) : Nat → List Char → Read (List Char)
  | 0, _ => failure
  | fuel + 1, done => do
    let c ← look 0
    if p c then
      skip
      need 1
      takeWhile p fuel (c :: done)
    else return done

/-- The characters of a line from here on as far as they satisfy a condition. -/
def word (p : Char → Bool) : Read (List Char) := do
  need 1
  return (← takeWhile p (← steps) []).reverse

/-- Go past characters of a line as long as they satisfy a condition. -/
def skipWhile (p : Char → Bool) : Read Unit := do
  let _ ← word p

/-- Whether a line begins here with a mark of three characters and nothing right behind it. -/
def seesMark (c : Char) : Read Bool := do
  let cs := (← get).ready
  return (← column) == 0 && cs.take 3 == [c, c, c] && isSpaceOrEnd (cs.getD 3 endChar)

/-- Whether a document begins or ends here by a mark. -/
def atMark : Read Bool := return (← seesMark '-') || (← seesMark '.')

/-- Go past characters, line ends among them, to the one with an offset. -/
def skipTo (offset : Nat) : Nat → Read Unit
  | 0 => failure
  | fuel + 1 => do
    need 1
    if offset ≤ (← get).offset then return ()
    else
      if isBreak (← look 0) then
        need 2
        let _ ← takeLine
      else skip
      skipTo offset fuel

/-- How far comments are looked for. -/
def commentReach : Nat := 512

/-- Go past a comment that begins a number of characters ahead, up to the end of its line. -/
def skipComment (ahead : Nat) : Read Unit := do
  skipTo ((← get).offset + ahead) (ahead + 1)
  skipWhile fun c => !isBreakOrEnd c

/-- Go past a comment on the same line, if there is one within reach. -/
def skipLineComment : Nat → Nat → Read Unit
  | 0, _ => return ()
  | fuel + 1, ahead => do
    need (ahead + 1)
    let c ← look ahead
    if isBlank c then skipLineComment fuel (ahead + 1)
    else if c == '#' then skipComment ahead
    else return ()

/-- Go past comments that follow each other with nothing but blanks and line ends between them. In
brackets a closing one ends the search, as does a line end beyond ASCII. -/
def skipComments (inFlow : Bool) : Nat → Nat → Read Unit
  | 0, _ => failure
  | fuel + 1, ahead => do
    if commentReach ≤ ahead then return ()
    else
      need (ahead + 1)
      let c ← look ahead
      if isBlank c || c == '\n' || c == '\r' then skipComments inFlow fuel (ahead + 1)
      else if isWideBreak c then need (min (ahead + 2) commentReach)
      else if c == '#' then
        skipComment ahead
        need 2
        if isWideBreak (← look 0) then return () else skipComments inFlow fuel 1
      else return ()

end Read

/-- The space between two words of a scalar: blanks on one line, or line ends. Of the line ends the
first counts apart from the others. All characters are newest first. -/
structure Gap where
  blanks : List Char
  broken : Bool
  first : List Char
  more : List Char
deriving Inhabited

namespace Gap

/-- No space at all. -/
def none : Gap := ⟨[], false, [], []⟩

/-- A line end that leaves nothing behind. -/
def silent : Gap := ⟨[], true, [], []⟩

/-- One more blank; at the beginning of a line it leaves nothing behind. -/
def addBlank (g : Gap) (c : Char) : Gap :=
  if g.broken then g else { g with blanks := c :: g.blanks }

/-- One more line end. -/
def addBreak (g : Gap) (cs : List Char) : Gap :=
  if g.broken then { g with more := cs ++ g.more } else ⟨[], true, cs, []⟩

/-- What a gap leaves in the scalar, newest first: a single line feed becomes a space, and of
several the first is dropped. -/
def folded (g : Gap) : List Char :=
  if !g.broken then g.blanks
  else if g.first = ['\n'] then (if g.more.isEmpty then [' '] else g.more)
  else g.more ++ g.first

/-- Read a gap. A tab must not stand for indentation, up to column `indent`. -/
def read (indent : Nat) : Nat → Gap → Read Gap
  | 0, _ => failure
  | fuel + 1, g => do
    let c ← Read.look 0
    if isBlank c then
      if g.broken && c == '\t' && (← Read.column) < indent then failure
      Read.skip
      Read.need 1
      read indent fuel (g.addBlank c)
    else if isBreak c then
      Read.need 2
      let cs ← Read.takeLine
      Read.need 1
      read indent fuel (g.addBreak cs)
    else return g

end Gap

end TinyScript.Yaml
