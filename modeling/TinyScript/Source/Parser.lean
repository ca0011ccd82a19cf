import TinyScript.Fault
import TinyScript.Source.Cursor
import TinyScript.Source.Expr

/-!
# Reading programs

The grammar is

* program: expression
* expression: (string | number | word) ( "(" [expression ("," expression)*] ")" )*

where white space and comments, from a number sign to the end of the line, may stand between any
two tokens. All bytes that end a token are ASCII, so tokens are cut bytewise. The reader tells where
and why it fails, and whether the text was only too short.
-/

namespace TinyScript

namespace Token

/-- White space of program texts: space, tab, line feed, form feed, carriage return. -/
def isBlank (b : UInt8) : Bool := b == 0x20 || b == 0x09 || b == 0x0A || b == 0x0C || b == 0x0D

/-- The ASCII digits. -/
def isDigit (b : UInt8) : Bool := 0x30 ≤ b && b ≤ 0x39

/-- The quotation mark, which opens and closes a string. -/
def quote : UInt8 := 0x22

/-- The number sign, which opens a comment. -/
def hash : UInt8 := 0x23

/-- The opening parenthesis. -/
def opening : UInt8 := 0x28

/-- The closing parenthesis. -/
def closing : UInt8 := 0x29

/-- The comma between arguments. -/
def comma : UInt8 := 0x2C

/-- The point before a fraction. -/
def point : UInt8 := 0x2E

/-- The bytes of words: all but white space and the five marks of the grammar. -/
def isWord (b : UInt8) : Bool :=
  !(isBlank b || b == opening || b == closing || b == comma || b == hash || b == quote)

/-- The value of a sequence of ASCII digits. -/
def digitsValue (ds : List UInt8) : Nat := ds.foldl (fun n d => 10 * n + (d.toNat - 0x30)) 0

/-- The digits of a number and the digits of its fraction, at the beginning of some bytes; a point
counts only in front of a digit. -/
def number? (bytes : List UInt8) : Option (List UInt8 × List UInt8) :=
  match bytes.takeWhile isDigit with
  | [] => none
  | whole =>
    match bytes.dropWhile isDigit with
    | p :: rest =>
      if p == point then some (whole, rest.takeWhile isDigit) else some (whole, [])
    | [] => some (whole, [])

/-- The text of a number with the given digits and fraction. -/
def numberText (whole fraction : List UInt8) : List UInt8 :=
  if fraction.isEmpty then whole else whole ++ point :: fraction

/-- The double nearest to a number with the given digits and fraction. -/
def numberValue (whole fraction : List UInt8) : Float :=
  (Decimal.mk (digitsValue (whole ++ fraction)) (-(fraction.length : Int))).toFloat

end Token

namespace Cursor

/-- Skip white space and comments; `comment` tells whether a comment is open. -/
def skipFrom (comment : Bool) : List UInt8 → Position → Cursor
  | [], p => ⟨[], p⟩
  | b :: rest, p =>
    if comment then skipFrom (b != 0x0A) rest (p.step b)
    else if Token.isBlank b then skipFrom false rest (p.step b)
    else if b == Token.hash then skipFrom true rest (p.step b)
    else ⟨b :: rest, p⟩

/-- The cursor at the next token. -/
def skipBlank (c : Cursor) : Cursor := skipFrom false c.rest c.pos

end Cursor

namespace Parser

/-- What reading gives: something and the cursor behind it, or a fault. -/
abbrev Result (α : Type) := Except Fault (α × Cursor)

/-- The fault where no expression begins. -/
def unexpected (c : Cursor) : Fault :=
  match c.rest with
  | [] => .placed .unexpectedEnd c.pos
  | b :: _ =>
    if b == Token.quote then .placed .unterminatedString c.pos
    else .placed (.unexpectedSyntax (c.remaining.preview 10)) c.pos

/-- Read a string: everything up to the next quotation mark, without escapes. -/
def string? (c : Cursor) : Option (Expr × Cursor) :=
  match c.rest with
  | [] => none
  | b :: rest =>
    if b == Token.quote then
      let body := rest.takeWhile (· != Token.quote)
      if body.length < rest.length then
        some (.string (Text.ofBytes body) c.pos, c.advance (body.length + 2))
      else none
    else none

/-- Read a string, a number or a word. -/
def atom (c : Cursor) : Result Expr :=
  match string? c with
  | some result => .ok result
  | none =>
    match Token.number? c.rest with
    | some (whole, fraction) =>
      let literal := Token.numberText whole fraction
      let value := Token.numberValue whole fraction
      if value.isInf then .error (.placed (.invalidNumber (Text.ofBytes literal)) c.pos)
      else .ok (.number value c.pos, c.advance literal.length)
    | none =>
      match c.rest.takeWhile Token.isWord with
      | [] => .error (unexpected c)
      | name => .ok (.word (Text.ofBytes name) c.pos, c.advance name.length)

/-- The fault of a reader whose bound is too small. -/
def exhausted : Fault := .unplaced .outOfRange

mutual

/-- Read an expression. Every call below uses up some of the first argument, which
`parse` chooses large enough for the text. -/
def expression : Nat → Cursor → Result Expr
  | 0, _ => .error exhausted
  | n + 1, c =>
    match atom c.skipBlank with
    | .error fault => .error fault
    | .ok (e, rest) => calls n e rest

/-- Read the argument lists that follow an operator. -/
def calls : Nat → Expr → Cursor → Result Expr
  | 0, _, _ => .error exhausted
  | n + 1, e, c =>
    let c := c.skipBlank
    match c.rest with
    | [] => .ok (e, c)
    | b :: _ =>
      if b == Token.opening then
        let inner := (c.advance 1).skipBlank
        if inner.rest.head? == some Token.closing then calls n (.apply e []) (inner.advance 1)
        else
          match arguments n [] inner with
          | .error fault => .error fault
          | .ok (args, rest) => calls n (.apply e args) rest
      else .ok (e, c)

/-- Read arguments up to the closing parenthesis; `done` holds the ones read, newest first. -/
def arguments : Nat → List Expr → Cursor → Result (List Expr)
  | 0, _, _ => .error exhausted
  | n + 1, done, c =>
    match expression n c with
    | .error fault => .error fault
    | .ok (e, rest) =>
      let rest := rest.skipBlank
      match rest.rest with
      | [] => .error (.placed (.expectedSeparator true) rest.pos)
      | b :: _ =>
        if b == Token.comma then arguments n (e :: done) (rest.advance 1)
        else if b == Token.closing then .ok ((e :: done).reverse, rest.advance 1)
        else .error (.placed (.expectedSeparator false) rest.pos)

end

end Parser

/-- Read a program: one expression and nothing but white space and comments after it. -/
def parse (src : Text) : Except Fault Expr :=
  match Parser.expression (2 * src.size + 2) (.ofText src) with
  | .error fault => .error fault
  | .ok (e, c) =>
    let c := c.skipBlank
    if c.atEnd then .ok e else .error (.placed .trailingText c.pos)

end TinyScript
