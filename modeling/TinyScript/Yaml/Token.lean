import Std.Data.HashMap
import TinyScript.Yaml.Scalar

/-!
# Tokens

The characters of a document as tokens. Indentation becomes tokens of its own: a collection that is
told by its indentation begins and ends with one. That a word is a key is seen only at the colon
behind it, so the place of every word that could be a key is kept until then, and tokens are handed
out only when no colon can turn the first of them into a key any more.
-/

namespace TinyScript.Yaml

/-- A token of a document. -/
inductive Token where
  | version (major minor : Nat)
  | tagHandle (handle start : Text)
  | documentStart
  | documentEnd
  | blockSequenceStart
  | blockMappingStart
  | blockEnd
  | flowSequenceStart
  | flowSequenceEnd
  | flowMappingStart
  | flowMappingEnd
  | blockEntry
  | flowEntry
  | key
  | value
  | alias (name : List Char)
  | anchor (name : List Char)
  | tag (handle suffix : Text)
  | scalar (chars : List Char) (plain : Bool)
  | streamEnd
deriving DecidableEq, Inhabited

/-- A token that may turn out to be a key, as long as it is `possible`: its number, its place in the
document, and whether it must be a key. -/
structure PossibleKey where
  possible : Bool
  required : Bool
  number : Nat
  line : Nat
  column : Nat
  offset : Nat
deriving Inhabited

/-- The tokens that wait, after `taken` others, and what decides about the next: how many brackets
are open, the columns of the open collections without brackets, whether a key may begin here, the
token that may be a key at each depth of brackets, innermost first, and at which depth the tokens
with some numbers are kept there. -/
structure Scanner where
  reader : Reader
  queue : Array Token
  taken : Nat
  brackets : Nat
  indents : List Nat
  keyAllowed : Bool
  keys : List PossibleKey
  kept : Std.HashMap Nat Nat
deriving Inhabited

/-- The beginning of a document. -/
def Scanner.start (bytes : List UInt8) : Scanner where
  reader := .start bytes
  queue := #[]
  taken := 0
  brackets := 0
  indents := []
  keyAllowed := true
  keys := [default]
  kept := ∅

/-- Scanning, which may fail. -/
abbrev Scan := StateT Scanner Option

namespace Scan

/-- Read characters. -/
def reading {α : Type} (m : Read α) : Scan α := fun s =>
  (m s.reader).map fun (a, r) => (a, { s with reader := r })

/-- The character so many places ahead. -/
def look (i : Nat) : Scan Char := reading (Read.look i)

/-- Whether the place is inside brackets. -/
def inFlow : Scan Bool := return (← get).brackets != 0

/-- How deep collections may be inside each other. -/
def maxDepth : Nat := 10000

/-- Say whether a key may begin here. -/
def allowKey (b : Bool) : Scan Unit := modify fun s => { s with keyAllowed := b }

/-- Add a token. -/
def push (t : Token) : Scan Unit := modify fun s => { s with queue := s.queue.push t }

/-- Add a token of some characters. -/
def mark (n : Nat) (t : Token) : Scan Unit := do
  reading (Read.skipMany n)
  push t

/-- Put a token in front of the one with a number, or behind all if that one is taken already. -/
def putIn (number : Nat) (t : Token) : Scan Unit := modify fun s =>
  { s with
    queue :=
      if number < s.taken then s.queue.push t
      else s.queue.insertIdxIfInBounds (number - s.taken) t }

/-- The number of the next token. -/
def nextNumber : Scan Nat := do
  let s ← get
  return s.taken + s.queue.size

/-- End the collections that begin right of a column; none stands for the outermost level. -/
def unroll (column : Option Nat) : List Nat → Array Token → List Nat × Array Token
  | [], tokens => ([], tokens)
  | indent :: rest, tokens =>
    if (column.map fun c => decide (c < indent)).getD true then
      unroll column rest (tokens.push .blockEnd)
    else (indent :: rest, tokens)

/-- End the collections that begin right of a column, outside brackets. -/
def unrollTo (column : Option Nat) : Scan Unit := modify fun s =>
  if s.brackets != 0 then s
  else
    let (indents, queue) := unroll column s.indents s.queue
    { s with indents := indents, queue := queue }

/-- Begin a collection at a column if it is right of the one around it, outside brackets. Its token
is put in front of the one with a number. -/
def roll (column number : Nat) (t : Token) : Scan Unit := do
  let s ← get
  if s.brackets != 0 || (s.indents.head?.map fun c => decide (column ≤ c)).getD false then return ()
  else if maxDepth ≤ s.indents.length then failure
  else
    set { s with indents := column :: s.indents }
    putIn number t

/-- Begin a collection here if it is right of the one around it. -/
def rollHere (t : Token) : Scan Unit := do
  roll (← get).reader.column (← nextNumber) t

/-- Give up the possible key of the innermost level; one that must be a key cannot be given up. -/
def dropKey : Scan Unit := do
  let s ← get
  match s.keys with
  | k :: rest =>
    if k.possible then
      if k.required then failure
      else
        set { s with
          keys := { k with possible := false } :: rest
          kept := s.kept.erase k.number }
  | [] => return ()

/-- Keep the place of the next token if it may be a key. -/
def saveKey : Scan Unit := do
  if (← get).keyAllowed then
    let number ← nextNumber
    dropKey
    modify fun s =>
      let r := s.reader
      let required := s.brackets == 0 && s.indents.head? == some r.column
      { s with
        keys := ⟨true, required, number, r.line, r.column, r.offset⟩ :: s.keys.tail
        kept := s.kept.insert number s.brackets }

/-- How far behind the beginning of a key its colon may stand. -/
def keyReach : Nat := 1024

/-- Whether the possible key inside so many brackets can still be one: it is on this line and not
too far away. A key that must be one and cannot is a failure. -/
def keyHolds (depth : Nat) : Scan Bool := do
  let s ← get
  let i := s.brackets - depth
  match s.keys[i]? with
  | none => return false
  | some k =>
    if !k.possible then return false
    else if k.line < s.reader.line || k.offset + keyReach < s.reader.offset then
      if k.required then failure
      else
        set { s with keys := s.keys.set i { k with possible := false } }
        return false
    else return true

/-- The end of the document stream, which is at the beginning of a line. -/
def readEnd : Scan Unit := do
  modify fun s =>
    if s.reader.column == 0 then s
    else { s with reader := { s.reader with column := 0, line := s.reader.line + 1 } }
  unrollTo none
  dropKey
  allowKey false
  push .streamEnd

/-- A mark where a document begins or ends. -/
def readMark (t : Token) : Scan Unit := do
  unrollTo none
  dropKey
  allowKey false
  mark 3 t

/-- An opening bracket. What could become a key inside it is not known yet. -/
def openBracket (t : Token) : Scan Unit := do
  saveKey
  let number ← nextNumber
  let s ← get
  if maxDepth ≤ s.brackets then failure
  else
    set { s with
      keys := { (default : PossibleKey) with number := number } :: s.keys
      brackets := s.brackets + 1 }
    allowKey true
    mark 1 t

/-- A closing bracket. -/
def closeBracket (t : Token) : Scan Unit := do
  dropKey
  modify fun s =>
    match s.keys with
    | k :: rest =>
      if s.brackets == 0 then s
      else
        { s with
          keys := rest
          brackets := s.brackets - 1
          kept := s.kept.erase k.number }
    | [] => s
  allowKey false
  mark 1 t

/-- A comma in brackets. -/
def readComma : Scan Unit := do
  dropKey
  allowKey true
  mark 1 .flowEntry

/-- The dash of a sequence entry. -/
def readDash : Scan Unit := do
  if !(← inFlow) then
    if !(← get).keyAllowed then failure
    rollHere .blockSequenceStart
  dropKey
  allowKey true
  mark 1 .blockEntry

/-- The question mark in front of a key. -/
def readQuestion : Scan Unit := do
  if !(← inFlow) then
    if !(← get).keyAllowed then failure
    rollHere .blockMappingStart
  dropKey
  allowKey (!(← inFlow))
  mark 1 .key

/-- The colon in front of a value. -/
def readColon : Scan Unit := do
  let s ← get
  if ← keyHolds s.brackets then
    match (← get).keys with
    | k :: rest =>
      putIn k.number .key
      roll k.column k.number .blockMappingStart
      modify fun s =>
        { s with
          keys := { k with possible := false } :: rest
          kept := s.kept.erase k.number }
      allowKey false
    | [] => failure
  else
    if !(← inFlow) then
      if !(← get).keyAllowed then failure
      rollHere .blockMappingStart
    allowKey (!(← inFlow))
  mark 1 .value

/-- Whether a character may be part of a name. -/
def isNameChar (c : Char) : Bool := c.isAlphanum || c == '_' || c == '-'

/-- Whether a character may follow a name directly. -/
def endsName (c : Char) : Bool :=
  isSpaceOrEnd c || c.toNat == 0x60 || "?:,]\x7d%@".toList.contains c

/-- An anchor or an alias. -/
def readName (t : List Char → Token) : Scan Unit := do
  saveKey
  allowKey false
  reading Read.skip
  let name ← reading (Read.word isNameChar)
  if name.isEmpty || !endsName (← look 0) then failure else push (t name)

/-- Whether a character may be part of a tag. -/
def isTagChar (c : Char) : Bool :=
  isNameChar c || c == '\x27' || ";/?:@&=+$,.!~*()[]%".toList.contains c

/-- The bytes of characters of ASCII, newest first, as a text. -/
def asciiText (cs : List Char) : Text :=
  Text.ofBytes (cs.map fun c => c.toUInt8).reverse

/-- Read a byte that is written with a percent sign and two hexadecimal digits. -/
def readOctet : Read UInt8 := do
  Read.need 3
  if (← Read.look 0) != '%' then failure
  let a ← StateT.lift (Text.digitIn? 16 (← Read.look 1))
  let b ← StateT.lift (Text.digitIn? 16 (← Read.look 2))
  Read.skipMany 3
  return UInt8.ofNat (a * 16 + b)

/-- Read bytes that continue a character, newest first in front of `done`. -/
def readContinuation : Nat → List UInt8 → Read (List UInt8)
  | 0, done => return done
  | n + 1, done => do
    let b ← readOctet
    if Character.isContinuation b then readContinuation n (b :: done) else failure

/-- Read the rest of a tag. The answer is newest first in front of `done`. -/
def readTagBytes : Nat → List UInt8 → Read (List UInt8)
  | 0, _ => failure
  | fuel + 1, done => do
    let c ← Read.look 0
    if !isTagChar c then return done
    else
      let done ←
        if c == '%' then do
          let b ← readOctet
          if Decoded.utf8Width b == 0 then failure
          else readContinuation (Decoded.utf8Width b - 1) (b :: done)
        else do
          Read.skip
          pure (c.toUInt8 :: done)
      Read.need 1
      readTagBytes fuel done

/-- Read the rest of a tag behind some of its characters; it must not be empty unless it may be. -/
def readUri (start : Text) (mayBeEmpty : Bool) : Read Text := do
  Read.need 1
  let bytes ← readTagBytes (← Read.steps) start.bytes.reverse
  if bytes.isEmpty && !mayBeEmpty then failure else return Text.ofBytes bytes.reverse

/-- Read a name between exclamation marks. The second one may be missing: the answer tells whether
it is there. -/
def readHandle : Read (Text × Bool) := do
  Read.need 1
  if (← Read.look 0) != '!' then failure
  Read.skip
  let word ← Read.word isNameChar
  let name := Text.ofChars ('!' :: word)
  if (← Read.look 0) == '!' then
    Read.skip
    return (name ++ "!", true)
  else return (name, false)

/-- Read a tag: its handle, which is empty for a tag that is written out, and its suffix. -/
def readTagParts : Read (Text × Text) := do
  Read.need 2
  if (← Read.look 1) == '<' then
    Read.skipMany 2
    let uri ← readUri Text.empty false
    if (← Read.look 0) != '>' then failure
    Read.skip
    return (Text.empty, uri)
  else
    let (name, closed) ← readHandle
    if closed then return (name, ← readUri Text.empty false)
    else
      let suffix ← readUri (name.drop 1) true
      if suffix.isEmpty then return (Text.empty, "!") else return ("!", suffix)

/-- A tag. -/
def readTag : Scan Unit := do
  saveKey
  allowKey false
  let (handle, suffix) ← reading readTagParts
  reading (Read.need 1)
  if isSpaceOrEnd (← look 0) then push (.tag handle suffix) else failure

/-- A plain scalar. After one that ends at the beginning of a line a key may follow. -/
def readPlainToken : Scan Unit := do
  saveKey
  let indent := ((← get).indents.head?.map (· + 1)).getD 0
  let flow ← inFlow
  let (cs, broken) ← reading do readPlain flow indent (← Read.steps) [] Gap.none
  allowKey broken
  push (.scalar cs.reverse true)

/-- A quoted scalar. -/
def readQuotedToken (single : Bool) : Scan Unit := do
  saveKey
  allowKey false
  let cs ← reading do
    Read.skip
    readQuoted single (← Read.steps) []
  push (.scalar cs.reverse false)

/-- A block scalar. -/
def readBlockToken (literal : Bool) : Scan Unit := do
  dropKey
  allowKey true
  let around := (← get).indents.head?
  let cs ← reading do
    Read.skip
    readBlock literal around
  push (.scalar cs.reverse false)

/-- A number of one or two digits. -/
def readShortNumber : Read Nat := do
  let digits ← Read.word Char.isDigit
  if digits.isEmpty || 2 < digits.length then failure
  else return digits.foldl (fun n c => 10 * n + (c.toNat - 48)) 0

/-- What follows the percent sign of a directive. -/
def readDirectiveParts : Read Token := do
  let name ← Read.word isNameChar
  if !isSpaceOrEnd (← Read.look 0) then failure
  else if name = "YAML".toList then
    Read.skipWhile isBlank
    let major ← readShortNumber
    if (← Read.look 0) != '.' then failure
    Read.skip
    return .version major (← readShortNumber)
  else if name = "TAG".toList then
    Read.skipWhile isBlank
    let (handle, closed) ← readHandle
    if !closed && handle != "!" then failure
    Read.need 1
    if !isBlank (← Read.look 0) then failure
    Read.skipWhile isBlank
    let start ← readUri Text.empty false
    Read.need 1
    if !isSpaceOrEnd (← Read.look 0) then failure
    return .tagHandle handle start
  else failure

/-- A directive, which takes a line. -/
def readDirective : Scan Unit := do
  unrollTo none
  dropKey
  allowKey false
  let t ← reading do
    Read.skip
    let t ← readDirectiveParts
    Read.skipWhile isBlank
    if (← Read.look 0) == '#' then Read.skipWhile fun c => !isBreakOrEnd c
    if !isBreakOrEnd (← Read.look 0) then failure
    if isBreak (← Read.look 0) then
      Read.need 2
      let _ ← Read.takeLine
    return t
  push t

/-- Whether no plain scalar can begin with a character. -/
def isIndicator (c : Char) : Bool :=
  isSpaceOrEnd c || c.toNat == 0x60 || "-?:,[]\x7b\x7d#&*!|>%@\"".toList.contains c || c == '\x27'

/-- Go past space and comments to the next token. A byte order mark at the beginning of what was at
hand makes every line lose its first character. -/
def skipSpace : Nat → Scan Unit
  | 0 => failure
  | fuel + 1 => do
    reading (Read.need 1)
    let r := (← get).reader
    if r.column == 0 && r.marked then reading Read.skip
    let tabs := (← inFlow) || !(← get).keyAllowed
    reading (Read.skipWhile fun c => c == ' ' || (tabs && c == '\t'))
    if (← look 0) == '#' then
      let flow ← inFlow
      reading do Read.skipComments flow ((← Read.steps) * Read.commentReach) 0
    if isBreak (← look 0) then
      reading do
        Read.need 2
        let _ ← Read.takeLine
      if !(← inFlow) then allowKey true
      skipSpace fuel

/-- Read the token that begins with a character in front of another one. -/
def readFrom (c next : Char) : Scan Unit := do
  let flow ← inFlow
  let apart := isSpaceOrEnd next
  if c == '[' then openBracket .flowSequenceStart
  else if c == '\x7b' then openBracket .flowMappingStart
  else if c == ']' then closeBracket .flowSequenceEnd
  else if c == '\x7d' then closeBracket .flowMappingEnd
  else if c == ',' then readComma
  else if c == '-' && apart then readDash
  else if c == '?' && (flow || apart) then readQuestion
  else if c == ':' && (flow || apart) then readColon
  else if c == '*' then readName .alias
  else if c == '&' then readName .anchor
  else if c == '!' then readTag
  else if c == '|' && !flow then readBlockToken true
  else if c == '>' && !flow then readBlockToken false
  else if c == '\x27' then readQuotedToken true
  else if c == '"' then readQuotedToken false
  else if !isIndicator c || c == '-' || (!flow && (c == '?' || c == ':')) then readPlainToken
  else failure

/-- Go past a comment behind the last token, if that ended on this line and is no dash. -/
def skipTail : Scan Unit := do
  let s ← get
  if s.queue.back? != some .blockEntry && !s.reader.fresh then
    reading (Read.skipLineComment Read.commentReach 0)

/-- Read the next token. -/
def next : Scan Unit := do
  skipSpace (← get).reader.limit
  unrollTo (some (← get).reader.column)
  reading (Read.need 4)
  let c ← look 0
  if c == endChar then readEnd
  else if (← get).reader.column == 0 && c == '%' then readDirective
  else if ← reading (Read.seesMark '-') then readMark .documentStart
  else if ← reading (Read.seesMark '.') then readMark .documentEnd
  else
    readFrom c (← look 1)
    skipTail

/-- How many tokens wait before one is handed out. -/
def queueLength : Nat := 3

/-- Read tokens until enough wait and the first of them can be handed out. -/
def fetch : Nat → Scan Unit
  | 0 => failure
  | fuel + 1 => do
    let s ← get
    if queueLength ≤ s.queue.size then
      match s.kept[s.taken]? with
      | none => return ()
      | some depth =>
        if ← keyHolds depth then
          next
          fetch fuel
        else return ()
    else
      next
      fetch fuel

/-- The token in front. -/
def front : Scan Token := do
  match (← get).queue[0]? with
  | some t => return t
  | none => failure

/-- Hand out the token in front. -/
def take : Scan Unit := modify fun s =>
  { s with queue := s.queue.extract 1 s.queue.size, taken := s.taken + 1 }

end Scan

end TinyScript.Yaml
