import Std.Data.HashSet
import TinyScript.Store.Basic

/-!
# Texts of values

A value is written as it could be typed in: texts in quotation marks, closures as the source that
makes them, arrays and instances with what they hold. Inside itself an array or an instance is
only hinted at, so writing ends however values refer to each other.

Writing works off a list of tasks from left to right. An array or instance is replaced by the pieces
that its text is made of, and by the task to leave it; until then it is one of those that are open,
which is how it is known inside itself.
-/

namespace TinyScript

/-- An array or an instance as something that holds values. -/
inductive Holder where
  | array (r : ArrayRef)
  | object (r : InstanceRef)
deriving DecidableEq, Hashable

/-- What the text of a holder is made of: plain text and the texts of values. -/
inductive Piece where
  | text (t : Text)
  | value (v : Value)

namespace Store

/-- The source text of a closure. -/
def closureText (s : Store) (r : ClosureRef) : Text :=
  match s.closures[r]? with
  | some c => "fun(" ++ Text.join ", " (c.params ++ [c.body.toText]) ++ ")"
  | none => "fun()"

/-- The class name and the label of an instance. -/
def instanceHead (s : Store) (r : InstanceRef) : Text :=
  s.className (s.parentOf r) ++ "#" ++ (s.instances[r]?.map Instance.label).getD Text.empty

/-- The text of a value without what it holds. -/
def plainText (s : Store) : Value → Text
  | .number x => Number.display x
  | .string t => "\"" ++ t ++ "\""
  | .boolean b => if b then "true" else "false"
  | .array _ => "[...]"
  | .closure r => s.closureText r
  | .builtin b _ => "[native func " ++ b.label ++ "]"
  | .classRef r => "[class " ++ s.className r ++ "]"
  | .object r => s.instanceHead r
  | .absent => "nil"

/-- The holder that a value is, if it is one. -/
def holder? : Value → Option Holder
  | .array r => some (.array r)
  | .object r => some (.object r)
  | _ => none

/-- The pieces of the elements of an array. -/
def itemPieces : List Value → List Piece
  | [] => []
  | v :: rest => .value v :: rest.foldr (fun v more => .text ", " :: .value v :: more) []

/-- The pieces of the fields of an instance. -/
def fieldPieces : List (Text × Value) → List Piece
  | [] => []
  | (name, v) :: rest =>
    .text (name ++ ": ") :: .value v ::
      rest.foldr (fun entry more => .text (", " ++ entry.1 ++ ": ") :: .value entry.2 :: more) []

/-- The pieces of the text of a holder. -/
def pieces (s : Store) : Holder → List Piece
  | .array r => .text "[" :: (itemPieces (s.items r).toList ++ [.text "]"])
  | .object r =>
    .text (s.instanceHead r ++ "\x7b") :: (fieldPieces (s.fields r).toList ++ [.text "\x7d"])

/-- What is left to be written: plain text, a value in which holders may nest so deep, or the end of
a holder. -/
inductive Task where
  | text (t : Text)
  | value (depth : Nat) (v : Value)
  | leave (h : Holder)

/-- The task of writing a piece. -/
def Task.ofPiece (depth : Nat) : Piece → Task
  | .text t => .text t
  | .value v => .value depth v

/-- The sum of what a function says of the elements of a list. -/
def total {α : Type} (f : α → Nat) : List α → Nat
  | [] => 0
  | x :: rest => f x + total f rest

/-- The sum over two lists is that of the sums. -/
theorem total_append {α : Type} (f : α → Nat) (xs ys : List α) :
    total f (xs ++ ys) = total f xs + total f ys := by
  induction xs with
  | nil => simp [total]
  | cons x xs ih => simp [total, ih, Nat.add_assoc]

/-- The sum over an image. -/
theorem total_map {α β : Type} (f : β → Nat) (g : α → β) (xs : List α) :
    total f (xs.map g) = total (fun x => f (g x)) xs := by
  induction xs with
  | nil => rfl
  | cons x xs ih => simp [total, ih]

/-- How many tasks it takes at most to write a value in which holders may nest so deep. -/
def effort (s : Store) : Nat → Value → Nat
  | 0, _ => 1
  | n + 1, v =>
    match holder? v with
    | none => 1
    | some h => 2 + total (fun
      | .text _ => 1
      | .value w => effort s n w) (s.pieces h)

/-- How many tasks a task comes to at most. -/
def Task.effort (s : Store) : Task → Nat
  | text _ => 1
  | value depth v => s.effort depth v
  | leave _ => 1

/-- Every value takes a task. -/
theorem effort_pos (s : Store) (n : Nat) (v : Value) : 0 < s.effort n v := by
  cases n with
  | zero => simp [effort]
  | succ n => simp only [effort]; split <;> omega

/-- The tasks of the pieces of a holder take as much effort as the pieces. -/
theorem effort_pieces (s : Store) (n : Nat) (v : Value) (h : Holder) (hv : holder? v = some h) :
    s.effort (n + 1) v = 2 + total (Task.effort s) ((s.pieces h).map (Task.ofPiece n)) := by
  simp only [effort, hv, total_map]
  congr 2
  funext p
  cases p <;> rfl

/-- Work off tasks, behind what is written already. -/
def write (s : Store) (opened : Std.HashSet Holder) (out : Text) (tasks : List Task) : Text :=
  match tasks with
  | [] => out
  | .text t :: rest => write s opened (out ++ t) rest
  | .leave h :: rest => write s (opened.erase h) out rest
  | .value depth v :: rest =>
    match _hv : holder? v, depth with
    | some h, n + 1 =>
      if opened.contains h then write s opened (out ++ s.plainText v) rest
      else write s (opened.insert h) out ((s.pieces h).map (Task.ofPiece n) ++ .leave h :: rest)
    | _, _ => write s opened (out ++ s.plainText v) rest
termination_by total (Task.effort s) tasks
decreasing_by
  all_goals simp only [total, total_append, Task.effort]
  · omega
  · omega
  · exact Nat.lt_add_of_pos_left (effort_pos ..)
  · rw [effort_pieces s n v h _hv]
    omega
  · exact Nat.lt_add_of_pos_left (effort_pos ..)

/-- The text of a value as it could be typed in. Open holders are distinct, so there are never more
of them than there are in the store. -/
def sourceText (s : Store) (v : Value) : Text :=
  match holder? v with
  | none => s.plainText v
  | some _ => s.write ∅ Text.empty [.value (s.arrays.size + s.instances.size + 1) v]

/-- The text of a value as it is printed: a text by itself, anything else as it could be typed
in. -/
def display (s : Store) : Value → Text
  | .string t => t
  | v => s.sourceText v

end Store

end TinyScript
