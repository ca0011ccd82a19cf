import TinyScript.Builtin.Run

/-!
# Frames

Evaluation keeps its own stack. A frame is what is left to do when the thing being worked on gives
back a value; it holds exactly what it needs for that. There is one kind of frame for each point at
which the evaluator waits for an evaluation, an operand, a part of a form or a call of a builtin.
-/

namespace TinyScript

/-- The part of a class form that is still to be evaluated: the class name, and the members as
pairs of a name expression and a function expression. -/
structure ClassPlan where
  name : Text
  members : List (Expr × Expr)
  scope : ScopeRef

/-- What is left to do when a value comes back. -/
inductive Frame where
  /-- An application ends, and faults from inside it are given the place of its operator. -/
  | application (op : Expr)
  /-- The operator of an application is known. -/
  | operator (op : Expr) (args : List Expr) (scope : ScopeRef)
  /-- One more argument is known; the ones before it are held newest first. -/
  | operand (f : Value) (op : Expr) (done : List Value) (rest : List Expr) (scope : ScopeRef)
  /-- A recorded call ends. -/
  | traced (name : Text)
  /-- The condition of a branch is known. -/
  | branch (yes no : Expr) (scope : ScopeRef)
  /-- The condition of a loop is known. -/
  | loopTest (test body : Expr) (scope : ScopeRef)
  /-- The body of a loop is done. -/
  | loopBody (test body : Expr) (scope : ScopeRef)
  /-- One expression of a sequence is done. -/
  | sequence (rest : List Expr) (scope : ScopeRef)
  /-- The value to bind is known. -/
  | define (name : Text) (scope : ScopeRef)
  /-- The value to assign is known. -/
  | assign (name : Text) (pos : Position) (scope : ScopeRef)
  /-- The callable that sets up instances of a class is known. -/
  | classMaker (pos : Position) (plan : ClassPlan)
  /-- The name of a method is known. -/
  | methodName (namePos : Position) (function : Expr) (maker : Value) (methods : Methods)
      (plan : ClassPlan)
  /-- The function of a method is known. -/
  | methodFunction (method : Text) (functionPos : Position) (maker : Value) (methods : Methods)
      (plan : ClassPlan)
  /-- A new instance is set up. -/
  | construct (created : Value)
  /-- A function called by a builtin is done. -/
  | builtin (pending : Pending)

end TinyScript
