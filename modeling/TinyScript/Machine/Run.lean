import TinyScript.Machine.Step
import TinyScript.Source.Parser

/-!
# Running programs

A program text is read and evaluated in a scope. The step budget starts anew for every program
that can be read; a text that cannot be read changes nothing.

Programs need not end, so running takes the number of machine steps to try and may come to no
outcome. A larger number never changes an outcome.

These are the requests that hosts make: to run a text in a scope, and to apply a value to arguments.
How long a request takes, and breaking it off from outside, are left out.
-/

namespace TinyScript

/-- More machine steps than any machine makes. -/
def unbounded : Nat := 0x1000000000000000

namespace Store

/-- A new top scope, in which every builtin is bound. -/
def newTopScope (s : Store) : ScopeRef × Store :=
  let home := s.scopes.size
  s.newScope none
    (.ofList ((Text.ofString "true", .boolean true) :: (Text.ofString "false", .boolean false) ::
      Catalogue.builtins.map fun b => (b.label, .builtin b home)))

/-- A store with a top scope and a scope inside it, which is the one to run programs in. -/
def initial (output : Output) (traced : Bool) : ScopeRef × Store :=
  let (top, s) := (Store.empty output traced).newTopScope
  s.newScope (some top) .empty

end Store

/-- Evaluate an expression in a scope. -/
def evaluate (limits : Limits) (fuel : Nat) (e : Expr) (scope : ScopeRef) (s : Store) :
    Option Outcome :=
  Machine.run limits fuel (.evaluating e scope [] s)

/-- Read a program and evaluate it in a scope, with the step budget full. -/
def execute (limits : Limits) (fuel : Nat) (src : Text) (scope : ScopeRef) (s : Store) :
    Option Outcome :=
  match parse src with
  | .error fault => some ⟨.error fault, s⟩
  | .ok e => evaluate limits fuel e scope { s with steps := 0 }

/-- Call a value with arguments, as a host does: the step budget goes on, and a fault of the called
value itself has no place. -/
def applyValue (limits : Limits) (fuel : Nat) (f : Value) (args : List Value) (s : Store) :
    Option Outcome :=
  Machine.run limits fuel (.calling f args [] s)

end TinyScript
