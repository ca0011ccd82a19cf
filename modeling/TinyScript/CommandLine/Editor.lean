import TinyScript.CommandLine.Key

/-!
# Editing a line

A line is typed at a cursor, which keys move. What keys remove at once can be put back, and lines
typed before can be fetched again.

The cursor can get beyond the end of a line that has a single character, and moves there as it does
elsewhere. What is typed or removed there is typed or removed at the end.
-/

namespace TinyScript.CommandLine

/-- A line with a cursor in it: the characters before the cursor, nearest first, those behind it,
and how far the cursor is beyond the end of the line. -/
structure Line where
  before : List Char
  after : List Char
  beyond : Nat
deriving DecidableEq, Inhabited

namespace Line

/-- A line with nothing in it. -/
def empty : Line := ⟨[], [], 0⟩

/-- The characters of a line. -/
def chars (l : Line) : List Char := l.before.reverse ++ l.after

/-- Whether nothing is in a line. -/
def isEmpty (l : Line) : Bool := l.before.isEmpty && l.after.isEmpty

/-- A line with the cursor at its end. -/
def ofChars (cs : List Char) : Line := ⟨cs.reverse, [], 0⟩

/-- Type characters at the cursor. -/
def insert (l : Line) (cs : List Char) : Line := ⟨cs.reverse ++ l.before, l.after, 0⟩

/-- Move the cursor to the left past characters of the line. -/
def moveLeft (l : Line) (n : Nat) : Line :=
  ⟨l.before.drop n, (l.before.take n).reverse ++ l.after, 0⟩

/-- Move the cursor to the right past characters of the line. -/
def moveRight (l : Line) (n : Nat) : Line :=
  ⟨(l.after.take n).reverse ++ l.before, l.after.drop n, 0⟩

/-- Move the cursor one place to the left, which beyond the end is not yet past a character. -/
def left (l : Line) : Line :=
  if l.beyond = 0 then l.moveLeft 1 else { l with beyond := l.beyond - 1 }

/-- Move the cursor one place to the right. At the end it stays there, but from beyond the end it
goes further. -/
def right (l : Line) : Line :=
  if l.beyond = 0 then l.moveRight 1 else { l with beyond := l.beyond + 1 }

/-- Whether a character is part of a word. -/
def isWordChar (c : Char) : Bool := c.isAlphanum

/-- How far it is back to the beginning of a word, through characters given nearest first. -/
def stepsBack : List Char → Nat
  | a :: b :: rest => if isWordChar a && !isWordChar b then 1 else stepsBack (b :: rest) + 1
  | cs => cs.length

/-- How far it is to the beginning of the next word. -/
def stepsOn : List Char → Nat
  | a :: b :: rest => if !isWordChar a && isWordChar b then 1 else stepsOn (b :: rest) + 1
  | cs => cs.length

/-- How many characters a word behind the cursor takes up with what is in front of it; all, if no
other word follows. -/
def wordLength (cs : List Char) : Nat :=
  let word := cs.dropWhile fun c => !isWordChar c
  if stepsOn word < word.length then cs.length - word.length + stepsOn word - 1 else cs.length

/-- Exchange the two characters around the cursor, or the last two at the end of the line, and move
behind them. With a single character the cursor only moves, also beyond the end. -/
def swap (l : Line) : Line :=
  match l.before, l.after with
  | [_], [] => { l with beyond := l.beyond + 1 }
  | _, _ =>
    let l := if l.before.isEmpty then l.moveRight 1 else if l.after.isEmpty then l.moveLeft 1 else l
    match l.before, l.after with
    | a :: before, b :: after => ⟨a :: b :: before, after, 0⟩
    | _, _ => l.moveRight 1

end Line

/-- A line typed before, and as it was changed since when it was last at hand. -/
structure Remembered where
  source : List Char
  draft : Line
  version : Nat
deriving DecidableEq, Inhabited

/-- Lines typed before, with the one being typed as the last. The line at hand is the one at
`current`; drafts of earlier versions do not count. -/
structure Recall where
  lines : Array Remembered
  current : Option Nat
  version : Nat
deriving DecidableEq, Inhabited

namespace Recall

/-- The number of lines that are remembered. -/
def limit : Nat := 500

/-- Nothing is remembered yet. -/
def empty : Recall := ⟨#[], none, 0⟩

/-- Add a line, which is then at hand. -/
def push (r : Recall) (cs : List Char) : Recall :=
  { r with lines := r.lines.push ⟨cs, .empty, 0⟩, current := some r.lines.size }

/-- Forget the oldest lines if there are too many. -/
def compact (r : Recall) : Recall :=
  let n := r.lines.size - limit
  if n = 0 then r
  else { r with lines := r.lines.extract n r.lines.size, current := r.current.map (· - n) }

/-- Lines from an earlier time, before anything is typed. -/
def ofLines (ls : List (List Char)) : Recall :=
  let r := (ls.foldl push empty).compact
  push { r with version := r.version + 1 } []

/-- Change the line at a place. -/
def change (r : Recall) (i : Nat) (f : Remembered → Remembered) : Recall :=
  { r with lines := r.lines.modify i f }

/-- Note how the line at hand looks now. -/
def note (r : Recall) (line : Line) : Recall :=
  match r.current with
  | none => (r.push line.chars).compact
  | some i => (r.change i fun l => { l with draft := line, version := r.version }).compact

/-- Give up drafts and go back to the last line. -/
def revert (r : Recall) : Recall :=
  { r with
    version := r.version + 1
    current := if r.lines.isEmpty then none else some (r.lines.size - 1) }

/-- Clear the last line, which is then at hand. -/
def clearLast (r : Recall) : Recall :=
  (r.change (r.lines.size - 1) fun l => { l with source := [], draft := .empty }).revert

/-- Remember a line that was entered, unless it is empty or the same as the one before it. -/
def enter (r : Recall) (cs : List Char) : Recall :=
  let previous? := if r.lines.size < 2 then none else r.lines[r.lines.size - 2]?
  if previous?.map Remembered.source = some cs then r.clearLast
  else if cs.isEmpty && !r.lines.isEmpty then r.clearLast
  else
    let r := match r.current with
      | none => r.push cs
      | some _ =>
        r.change (r.lines.size - 1) fun l => { l with source := cs, version := r.version }
    push { r with version := r.version + 1 } []

/-- How a line looks when it is fetched. -/
def shown (r : Recall) (l : Remembered) : List Char :=
  if l.version = r.version then l.draft.chars else l.source

/-- Fetch the line at a place, if there is one. -/
def fetch (r : Recall) (place : Option Nat) : Option (List Char × Recall) :=
  match place with
  | none => none
  | some i => r.lines[i]?.map fun l => (r.shown l, { r with current := some i })

/-- Fetch the line before the one at hand. -/
def older (r : Recall) : Option (List Char × Recall) :=
  r.fetch (r.current.bind fun i => if i = 0 then none else some (i - 1))

/-- Fetch the line after the one at hand. -/
def newer (r : Recall) : Option (List Char × Recall) := r.fetch (r.current.map (· + 1))

end Recall

/-- A line being typed: what was removed last, and the lines typed before. -/
structure Editor where
  line : Line
  removed : List Char
  past : Recall
deriving DecidableEq, Inhabited

/-- What comes of a key: nothing to be seen, something to write, a line that is complete or broken
off, or the end of the input. -/
inductive Response where
  | quiet
  | write (t : Text)
  | entered (line : List Char)
  | interrupted (line : List Char)
  | closed
deriving DecidableEq, Inhabited

/-- The beginning that texts have in common. -/
def commonStart : List (List Char) → List Char
  | [] => []
  | cs :: rest =>
    rest.foldl (fun done ds => ((done.zip ds).takeWhile fun (a, b) => a == b).map Prod.fst) cs

namespace Editor

/-- What is written when a key cannot do anything. -/
def bell : Text := "\x07"

/-- What moves to the top of the screen. -/
def toTop : Text := "\x1b[H"

/-- Nothing typed yet. -/
def start (r : Recall) : Editor := ⟨Line.empty, [], r⟩

/-- Enter the line. -/
def enter (e : Editor) : Editor × Response :=
  let cs := e.line.chars
  ({ e with line := .empty, past := (e.past.enter cs).note .empty }, .entered cs)

/-- Go on with another line. -/
def withLine (e : Editor) (l : Line) : Editor × Response :=
  ({ e with line := l, past := e.past.note l }, .quiet)

/-- Go on with another line, where some characters were removed that can be put back. -/
def without (e : Editor) (removed : List Char) (l : Line) : Editor × Response :=
  withLine { e with removed := removed } l

/-- Nothing can be done. -/
def refuse (e : Editor) : Editor × Response := ((e.withLine e.line).1, .write bell)

/-- Go on with a line typed before, if there is one. -/
def fetched (e : Editor) : Option (List Char × Recall) → Editor × Response
  | some (cs, r) => withLine { e with past := r } (.ofChars cs)
  | none => e.refuse

/-- Remove the word before the cursor. If there is no beginning of a word before it, the whole line
goes, and cannot be put back. -/
def dropWordBefore (e : Editor) : Editor × Response :=
  let l := e.line
  let n := Line.stepsBack l.before
  if l.before.isEmpty then e.withLine l
  else if n < l.before.length then
    e.without (l.before.take n).reverse ⟨l.before.drop n, l.after, 0⟩
  else e.withLine .empty

/-- Press a key; `endings` are those that complete the word before a place in a line. -/
def press (endings : List Char → Nat → List (List Char)) (e : Editor) : Key → Editor × Response
  | .char c => e.withLine (e.line.insert [c])
  | .enter => e.enter
  | .stop => if e.line.isEmpty then (e, .closed) else e.enter
  | .interrupt =>
    ({ e with line := .empty, past := e.past.revert }, .interrupted e.line.chars)
  | .delete =>
    match e.line.after with
    | c :: after => e.without [c] ⟨e.line.before, after, 0⟩
    | [] =>
      if e.line.isEmpty then ({ e with past := e.past.revert }, .closed) else e.refuse
  | .backspace =>
    if e.line.isEmpty then e.refuse
    else e.withLine ⟨e.line.before.tail, e.line.after, 0⟩
  | .left => e.withLine e.line.left
  | .right => e.withLine e.line.right
  | .lineStart => e.withLine (e.line.moveLeft e.line.before.length)
  | .lineEnd => e.withLine (e.line.moveRight e.line.after.length)
  | .wordLeft => e.withLine (e.line.moveLeft (Line.stepsBack e.line.before))
  | .wordRight => e.withLine (e.line.moveRight (Line.stepsOn e.line.after))
  | .older => e.fetched e.past.older
  | .newer => e.fetched e.past.newer
  | .killBefore =>
    if e.line.before.isEmpty then e.withLine e.line
    else e.without e.line.before.reverse ⟨[], e.line.after, 0⟩
  | .killAfter => e.without e.line.after ⟨e.line.before, [], 0⟩
  | .killWordBefore => e.dropWordBefore
  | .killWordAfter =>
    let n := Line.wordLength e.line.after
    if e.line.after.isEmpty then e.withLine e.line
    else e.without (e.line.after.take n) ⟨e.line.before, e.line.after.drop n, 0⟩
  | .yank => e.withLine (if e.removed.isEmpty then e.line else e.line.insert e.removed)
  | .swap => e.withLine e.line.swap
  | .complete =>
    e.withLine (e.line.insert (commonStart (endings e.line.chars e.line.before.length)))
  | .clear => ((e.withLine e.line).1, .write toTop)
  | .idle => e.withLine e.line

end Editor

end TinyScript.CommandLine
