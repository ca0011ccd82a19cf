import TinyScript.Machine.Run
import TinyScript.Text.Blank

/-!
# Sessions

A session takes a program line by line. Lines are collected until they can be read as a whole, and
then evaluated in a scope that lasts from program to program; the outcome is reported to the writer
of the session, which need not be the output where programs print. A session also completes names.

This is all that a session does: it is asked for its prompt, given lines and resets, and asked for
completions. What its writer refuses is passed over. The terminal that lines are typed at is left
out here; the editing of lines and the history belong to the command line.
-/

namespace TinyScript

/-- Whether texts are coloured for a terminal. -/
inductive Style where
  | plain
  | coloured
deriving DecidableEq, Inhabited

namespace Style

/-- A text between an escape sequence and the one that ends it. -/
def paint (style : Style) (code : Text) (t : Text) : Text :=
  match style with
  | plain => t
  | coloured => "\x1b[" ++ code ++ "m" ++ t ++ "\x1b[0m"

/-- A green text. -/
def green (style : Style) (t : Text) : Text := style.paint "32" t

/-- A red text. -/
def red (style : Style) (t : Text) : Text := style.paint "31" t

end Style

/-- A scope that lasts, the lines that wait for the rest of a program, and the store. -/
structure Session where
  scope : ScopeRef
  pending : Text
  store : Store

namespace Session

/-- Whether lines wait for the rest of a program. -/
def isContinued (s : Session) : Bool := !s.pending.isEmpty

/-- What is shown in front of the next line. -/
def prompt (style : Style) (s : Session) : Text :=
  style.green (if s.isContinued then "." else ">") ++ " "

/-- Forget the lines that wait. -/
def reset (s : Session) : Session := { s with pending := Text.empty }

/-- The command that ends a session. -/
def exitCommand : Text := ".exit"

/-- The command that shows the commands. -/
def helpCommand : Text := ".help"

/-- What the help command shows. -/
def helpText : Text :=
  ".exit   leave the REPL\n.help   show this text\nhelp()  list all builtins, help(\"name\") describes one of them\n"

/-- Whether a line holds nothing but white space and comments. -/
def isBlankLine (line : Text) : Bool := (Cursor.ofText line).skipBlank.atEnd

/-- What is written about the outcome of a program. -/
def report (style : Style) (o : Outcome) : Text :=
  match o.result with
  | .ok v => style.red "=" ++ " " ++ o.store.sourceText v ++ "\n"
  | .error fault => style.red fault.report ++ "\n"

end Session

/-- A session and where it writes: a writer of its own, or, if there is none, the output where
programs print. -/
structure Console where
  session : Session
  writer : Option Output

namespace Console

/-- Write a text where the session writes. -/
def write (c : Console) (t : Text) : Console :=
  match c.writer with
  | some w => { c with writer := some (w.write t) }
  | none =>
    let store := c.session.store
    { c with session := { c.session with store := { store with output := store.output.write t } } }

/-- A session that a program has left, with no lines waiting, and with a report of the outcome. -/
def report (style : Style) (c : Console) (o : Outcome) : Console :=
  write { c with session := { c.session with pending := Text.empty, store := o.store } }
    (Session.report style o)

/-- Take a line as part of a program: run the program if it is complete, and wait if it is not. -/
def submit (style : Style) (limits : Limits) (fuel : Nat) (c : Console) (line : Text) :
    Option Console :=
  let src := c.session.pending ++ line
  match execute limits fuel src c.session.scope c.session.store with
  | none => none
  | some o =>
    match o.result with
    | .error fault =>
      if fault.cause.isIncomplete then
        some { c with session := { c.session with pending := src ++ "\n", store := o.store } }
      else some (c.report style o)
    | .ok _ => some (c.report style o)

/-- Take a line; the answer is false when the session is to end. Commands and blank lines are seen
only while no lines wait. -/
def feed (style : Style) (limits : Limits) (fuel : Nat) (c : Console) (line : Text) :
    Option (Bool × Console) :=
  if c.session.isContinued then (c.submit style limits fuel line).map fun c => (true, c)
  else if Session.isBlankLine line then some (true, c)
  else if line.trim = Session.exitCommand then some (false, c)
  else if line.trim = Session.helpCommand then some (true, c.write Session.helpText)
  else (c.submit style limits fuel line).map fun c => (true, c)

end Console

namespace Session

/-- Take a line in a session that writes where programs print. -/
def feed (style : Style) (limits : Limits) (fuel : Nat) (s : Session) (line : Text) :
    Option (Bool × Session) :=
  (Console.feed style limits fuel ⟨s, none⟩ line).map fun (stays, c) => (stays, c.session)

/-- The names that complete a text: those seen from the scope, those declared, and the commands if
the text begins like one. -/
def complete (s : Session) (start : Text) : List Text :=
  let commands := if start.startsWith "." then [exitCommand, helpCommand] else []
  Text.extensions start
    (Text.sorted (s.store.visibleNames s.scope ++ Catalogue.namesFrom start ++ commands))

/-- Whether a character ends the word to the left of the cursor. -/
def endsWord (c : Char) : Bool :=
  c == ' ' || c == '\t' || c == '\n' || c == '(' || c == ')' || c == ','

/-- The word to the left of a place in a line. -/
def wordBefore (line : List Char) (place : Nat) : List Char :=
  ((line.take place).reverse.takeWhile fun c => !endsWord c).reverse

/-- The endings that complete the word to the left of a place, and the length of that word. -/
def completeAt (s : Session) (line : List Char) (place : Nat) : List Text × Nat :=
  let word := wordBefore line place
  let start := Text.ofChars word
  ((s.complete start).map fun name => (name.drop start.size).mended,
    word.length)

end Session

end TinyScript
