import TinyScript.Number.Format
import TinyScript.Source.Position

/-!
# Expressions

A program is one expression: a number, a text, a word, or an expression applied to arguments.
Every leaf knows its place; an application stands where its leftmost leaf stands.
-/

namespace TinyScript

/-- A node of the program tree. -/
inductive Expr where
  | number (x : Float) (pos : Position)
  | string (s : Text) (pos : Position)
  | word (name : Text) (pos : Position)
  | apply (operator : Expr) (args : List Expr)
deriving Inhabited

namespace Expr

/-- Where an expression begins. -/
def pos : Expr → Position
  | number _ p => p
  | string _ p => p
  | word _ p => p
  | apply operator _ => operator.pos

mutual

/-- Write an expression behind a text. -/
def write (out : Text) : Expr → Text
  | number x _ => out ++ Number.literal x
  | string s _ => out ++ "\"" ++ s ++ "\""
  | word name _ => out ++ name
  | apply operator args => writeArgs (operator.write out ++ "(") args ++ ")"

/-- Write expressions with commas between them behind a text. -/
def writeArgs (out : Text) : List Expr → Text
  | [] => out
  | e :: rest => writeMore (e.write out) rest

/-- Write more expressions, each behind a comma, behind a text. -/
def writeMore (out : Text) : List Expr → Text
  | [] => out
  | e :: rest => writeMore (e.write (out ++ ", ")) rest

end

/-- The text of an expression; reading it again gives an equal tree. -/
def toText (e : Expr) : Text := e.write Text.empty

mutual

/-- Writing adds the text of an expression. -/
theorem write_eq (out : Text) : (e : Expr) → e.write out = out ++ e.toText
  | number x _ => by simp [write, toText]
  | string s _ => by simp [write, toText, Text.append_assoc]
  | word name _ => by simp [write, toText]
  | apply operator args => by
    simp only [write, toText]
    rw [write_eq out operator, write_eq Text.empty operator, writeArgs_eq, writeArgs_eq (_ ++ "(")]
    simp [Text.append_assoc]

/-- Writing adds the texts of expressions, joined by commas. -/
theorem writeArgs_eq (out : Text) :
    (args : List Expr) → writeArgs out args = out ++ Text.join ", " (args.map toText)
  | [] => by simp [writeArgs, Text.join]
  | e :: rest => by
    simp only [writeArgs, List.map_cons]
    rw [write_eq out e, writeMore_eq, Text.join_cons, Text.append_assoc, List.map_map]
    rfl

/-- Writing adds the texts of expressions, each behind a comma. -/
theorem writeMore_eq (out : Text) : (args : List Expr) →
    writeMore out args = out ++ Text.concat (args.map fun e => ", " ++ e.toText)
  | [] => by simp [writeMore]
  | e :: rest => by
    simp only [writeMore, List.map_cons]
    rw [write_eq _ e, writeMore_eq, Text.concat_cons]
    simp [Text.append_assoc]

end

/-- The text of an application: that of the operator, and those of the arguments in parentheses. -/
theorem toText_apply (operator : Expr) (args : List Expr) :
    (apply operator args).toText =
      operator.toText ++ "(" ++ Text.join ", " (args.map toText) ++ ")" := by
  rw [toText, write, writeArgs_eq, write_eq, Text.empty_append]

mutual

/-- Whether two expressions are the same apart from their places. -/
def same : Expr → Expr → Bool
  | number x _, number y _ => x == y
  | string s _, string t _ => s == t
  | word s _, word t _ => s == t
  | apply f as, apply g bs => same f g && sameAll as bs
  | _, _ => false

/-- Whether two lists of expressions are the same apart from their places. -/
def sameAll : List Expr → List Expr → Bool
  | [], [] => true
  | a :: as, b :: bs => same a b && sameAll as bs
  | _, _ => false

end

end Expr

end TinyScript
