import TinyScript.Sorting.Stable
import TinyScript.Store.Printer

/-!
# Calls back into the program

Some builtins call functions that a program hands them. Such a builtin works on a snapshot of the
array and is a sequence of calls; between two calls it is what it has done and what is left to do.
These builtins are mapping, filtering, visiting, finding, folding, and sorting by a comparator.
-/

namespace TinyScript

/-- What a builtin still has to do when the function it has called gives back a value. -/
inductive Pending where
  | mapping (f : Value) (done rest : List Value)
  | filtering (f item : Value) (done rest : List Value)
  | visiting (f : Value) (rest : List Value)
  | finding (f item : Value) (rest : List Value)
  | folding (f : Value) (rest : List Value)
  | sorting (f : Value) (next : Bool → Query Value (List Value))

/-- What a builtin comes to: a value, or a failure, or a call whose result it waits for, or a call
whose result is its own. -/
inductive Reply where
  | value (v : Value) (s : Store)
  | failure (cause : Cause) (s : Store)
  | await (f : Value) (args : List Value) (pending : Pending) (s : Store)
  | become (f : Value) (args : List Value) (s : Store)

namespace Reply

/-- A new array. -/
def array (s : Store) (items : List Value) : Reply :=
  let (v, s) := s.newArray items.toArray
  .value v s

/-- Map the rest of the elements. -/
def map (s : Store) (f : Value) (done : List Value) : List Value → Reply
  | [] => array s done.reverse
  | x :: rest => .await f [x] (.mapping f done rest) s

/-- Filter the rest of the elements. -/
def filter (s : Store) (f : Value) (done : List Value) : List Value → Reply
  | [] => array s done.reverse
  | x :: rest => .await f [x] (.filtering f x done rest) s

/-- Visit the rest of the elements. -/
def visit (s : Store) (f : Value) : List Value → Reply
  | [] => .value (.boolean false) s
  | x :: rest => .await f [x] (.visiting f rest) s

/-- Look for an element in the rest of the elements. -/
def find (s : Store) (f : Value) : List Value → Reply
  | [] => .value (.boolean false) s
  | x :: rest => .await f [x] (.finding f x rest) s

/-- Fold the rest of the elements. -/
def fold (s : Store) (f acc : Value) : List Value → Reply
  | [] => .value acc s
  | x :: rest => .await f [acc, x] (.folding f rest) s

/-- Go on sorting. -/
def sort (s : Store) (f : Value) : Query Value (List Value) → Reply
  | .done items => array s items
  | .ask x y next => .await f [x, y] (.sorting f next) s

end Reply

/-- Go on after the function called has given back a value. -/
def Pending.resume (s : Store) (v : Value) : Pending → Reply
  | .mapping f done rest => Reply.map s f (v :: done) rest
  | .filtering f item done rest => Reply.filter s f (if v.isTruthy then item :: done else done) rest
  | .visiting f rest => Reply.visit s f rest
  | .finding f item rest => if v.isTruthy then .value item s else Reply.find s f rest
  | .folding f rest => Reply.fold s f v rest
  | .sorting f next =>
    match v.toNumber "sort comparator" with
    | .error cause => .failure cause s
    | .ok x => Reply.sort s f (next (x < 0))

end TinyScript
