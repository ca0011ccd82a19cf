import TinyScript.Machine.Frame

/-!
# The machine

A machine state is what is being worked on, the stack of frames, and the store. One step looks only
at what is being worked on and at the top of the stack. A budget bounds how many evaluations are
started and how deep they nest.

This is the evaluator as a whole: the evaluation of an expression with its two limits (`eval`,
`start`), the seven forms that receive their arguments unevaluated (`begin`), the application of
closures, classes and builtins (`enter`, `call`), the recording of calls, and the way of a fault
through the applications around it, the innermost of which gives it its place (`unwind`). Evaluation
that nests is a stack of frames here, so the memory that nesting takes, and a run that ends for want
of it, are left out, and so are hosts that use one evaluator from several threads.
-/

namespace TinyScript

/-- How many evaluations may start and how many may be under way at once; no number, no bound. -/
structure Limits where
  steps : Option Nat
  depth : Option Nat
deriving DecidableEq, Inhabited

namespace Limits

/-- A bound given as an integer, where anything but a positive one means none. -/
def bound (n : Int) : Option Nat := if 0 < n then some n.toNat else none

/-- The nesting bound of an evaluator that is told none. -/
def defaultDepth : Nat := 100000

/-- Limits given as integers. -/
def ofInts (steps depth : Int) : Limits := ⟨bound steps, bound depth⟩

end Limits

/-- A state of the machine: an expression or a call is being worked on, or the value or fault that
came of it is handed to the top of the stack. -/
inductive Machine where
  | evaluating (e : Expr) (scope : ScopeRef) (stack : List Frame) (store : Store)
  | calling (f : Value) (args : List Value) (stack : List Frame) (store : Store)
  | giving (v : Value) (stack : List Frame) (store : Store)
  | raising (fault : Fault) (stack : List Frame) (store : Store)

/-- What a finished evaluation leaves. -/
structure Outcome where
  result : Except Fault Value
  store : Store

namespace Machine

/-- Raise a fault whose place is not known yet. -/
def fail (cause : Cause) (stack : List Frame) (s : Store) : Machine :=
  raising (.unplaced cause) stack s

/-- Raise a fault at a place. -/
def failAt (cause : Cause) (p : Position) (stack : List Frame) (s : Store) : Machine :=
  raising (.placed cause p) stack s

/-- The name under which a call is recorded: that of what is called, if it has one, and otherwise
the text of the operator. -/
def callName (s : Store) (f : Value) (op : Expr) : Text :=
  match f with
  | .closure r =>
    match s.closures[r]? with
    | some c => if c.name.isEmpty then op.toText else c.name
    | none => op.toText
  | .builtin b _ => b.label
  | .classRef r => s.className r
  | _ => op.toText

/-- Call a function from an application, and record the call if events are recorded. -/
def enter (f : Value) (op : Expr) (args : List Value) (stack : List Frame) (s : Store) : Machine :=
  if s.events.isSome then
    let name := callName s f op
    calling f args (.traced name :: stack) (s.record .begins name)
  else calling f args stack s

/-- Evaluate the next argument, or call the function when there is none. -/
def operands (f : Value) (op : Expr) (done : List Value) (rest : List Expr) (scope : ScopeRef)
    (stack : List Frame) (s : Store) : Machine :=
  match rest with
  | [] => enter f op done.reverse stack s
  | e :: rest => evaluating e scope (.operand f op done rest scope :: stack) s

/-- The words among some expressions, or the place of the first one that is no word. -/
def words : List Expr → Except Position (List Text)
  | [] => .ok []
  | .word name _ :: rest => (words rest).map (name :: ·)
  | e :: _ => .error e.pos

/-- The members of a class form, or the place of the first one that is no method. -/
def members : List Expr → Except Position (List (Expr × Expr))
  | [] => .ok []
  | .apply (.word head p) [name, function] :: rest =>
    if head = Text.ofString "method" then (members rest).map ((name, function) :: ·) else .error p
  | e :: _ => .error e.pos

/-- Evaluate the next member of a class, or make the class and bind it when there is none. -/
def nextMember (maker : Value) (methods : Methods) (plan : ClassPlan) (stack : List Frame)
    (s : Store) : Machine :=
  match plan.members with
  | [] =>
    let (v, s) := s.newClass ⟨plan.name, maker, methods⟩
    giving v stack (s.define plan.scope plan.name v)
  | (name, function) :: rest =>
    evaluating name plan.scope
      (.methodName name.pos function maker methods { plan with members := rest } :: stack) s

/-- Begin a class form: look at all its parts, then evaluate the maker. -/
def beginClass (args : List Expr) (scope : ScopeRef) (stack : List Frame) (s : Store) : Machine :=
  match args with
  | name :: maker :: rest =>
    match name with
    | .word n _ =>
      match members rest with
      | .ok ms => evaluating maker scope (.classMaker maker.pos ⟨n, ms, scope⟩ :: stack) s
      | .error p => failAt .memberNotMethod p stack s
    | e => failAt .classNameNotWord e.pos stack s
  | _ => fail .classTooShort stack s

/-- Begin a form. -/
def begin (form : Form) (args : List Expr) (scope : ScopeRef) (stack : List Frame) (s : Store) :
    Machine :=
  match form with
  | .branch =>
    match args with
    | [test, yes, no] => evaluating test scope (.branch yes no scope :: stack) s
    | _ => fail (.wrongFormCount form.label) stack s
  | .loop =>
    match args with
    | [test, body] => evaluating test scope (.loopTest test body scope :: stack) s
    | _ => fail (.wrongFormCount form.label) stack s
  | .sequence =>
    match args with
    | [] => giving (.boolean false) stack s
    | e :: rest => evaluating e scope (.sequence rest scope :: stack) s
  | .define =>
    match args with
    | [.word name _, e] => evaluating e scope (.define name scope :: stack) s
    | _ => fail (.wrongBinding form.label) stack s
  | .assign =>
    match args with
    | [.word name p, e] => evaluating e scope (.assign name p scope :: stack) s
    | _ => fail (.wrongBinding form.label) stack s
  | .function =>
    match args.getLast? with
    | none => fail .missingBody stack s
    | some body =>
      match words args.dropLast with
      | .ok params =>
        let (v, s) := s.newClosure params body scope
        giving v stack s
      | .error p => failAt .parameterNotWord p stack s
  | .classForm => beginClass args scope stack s

/-- Whether a count is beyond a bound. -/
def beyond (limit : Option Nat) (count : Nat) : Bool :=
  match limit with
  | some most => most < count
  | none => false

/-- Start the evaluation of an expression that the limits allow. -/
def start (e : Expr) (scope : ScopeRef) (stack : List Frame) (s : Store) : Machine :=
  match e with
  | .number x _ => giving (.number x) stack s
  | .string t _ => giving (.string t) stack s
  | .word name p =>
    match s.lookup scope name with
    | some v => giving v stack s
    | none => failAt (.undefinedName name) p stack s
  | .apply op args =>
    let stack := .application op :: stack
    let s := { s with depth := s.depth + 1 }
    match op with
    | .word name _ =>
      match Form.ofName? name with
      | some form => begin form args scope stack s
      | none => evaluating op scope (.operator op args scope :: stack) s
    | _ => evaluating op scope (.operator op args scope :: stack) s

/-- Evaluate an expression: count the step, look at the limits, and start. -/
def eval (limits : Limits) (e : Expr) (scope : ScopeRef) (stack : List Frame) (s : Store) :
    Machine :=
  let s := { s with steps := s.steps + 1 }
  if beyond limits.steps s.steps then
    failAt (.stepBudget (limits.steps.getD 0)) e.pos stack s
  else if beyond limits.depth (s.depth + 1) then
    failAt (.nestingDepth (limits.depth.getD 0)) e.pos stack s
  else start e scope stack s

/-- Bindings of parameters to arguments; of two parameters with one name the later one counts. -/
def bindParams (params : List Text) (args : List Value) : Bindings :=
  .ofList (params.zip args)

/-- Go on as a builtin replies. -/
def reply (r : Reply) (stack : List Frame) : Machine :=
  match r with
  | .value v s => giving v stack s
  | .failure cause s => fail cause stack s
  | .await f args pending s => calling f args (.builtin pending :: stack) s
  | .become f args s => calling f args stack s

/-- Call a value with arguments. -/
def call (f : Value) (args : List Value) (stack : List Frame) (s : Store) : Machine :=
  match f with
  | .closure r =>
    match s.closures[r]? with
    | none => fail .outOfRange stack s
    | some c =>
      if args.length ≠ c.params.length then
        fail (.wrongArgumentCount c.params.length args.length) stack s
      else
        let (scope, s) := s.newScope (some c.scope) (bindParams c.params args)
        evaluating c.body scope stack s
  | .builtin b _ => reply (b.run s args) stack
  | .classRef r =>
    match s.classes[r]? with
    | none => fail .outOfRange stack s
    | some info =>
      let (v, s) := s.bear r
      calling info.maker (v :: args) (.construct v :: stack) s
  | v => fail (.wrongType "apply" .function v.type) stack s

/-- Hand a value to a frame. -/
def resume (v : Value) (frame : Frame) (stack : List Frame) (s : Store) : Machine :=
  match frame with
  | .application _ => giving v stack { s with depth := s.depth - 1 }
  | .operator op args scope =>
    if v.isCallable then operands v op [] args scope stack s
    else failAt .notApplicable op.pos stack s
  | .operand f op done rest scope => operands f op (v :: done) rest scope stack s
  | .traced name => giving v stack (s.record .ends name)
  | .branch yes no scope => evaluating (if v.isTruthy then yes else no) scope stack s
  | .loopTest test body scope =>
    if v.isTruthy then evaluating body scope (.loopBody test body scope :: stack) s
    else giving (.boolean false) stack s
  | .loopBody test body scope => evaluating test scope (.loopTest test body scope :: stack) s
  | .sequence rest scope =>
    match rest with
    | [] => giving v stack s
    | e :: rest => evaluating e scope (.sequence rest scope :: stack) s
  | .define name scope => giving v stack ((s.nameClosure v name).define scope name v)
  | .assign name p scope =>
    match s.owner scope name with
    | some o => giving v stack (s.define o name v)
    | none => failAt (.undefinedName name) p stack s
  | .classMaker p plan =>
    if v.isCallable then nextMember v .empty plan stack s
    else failAt (.constructorNotFunction v.type) p stack s
  | .methodName p function maker methods plan =>
    match v with
    | .string name =>
      evaluating function plan.scope
        (.methodFunction name function.pos maker methods plan :: stack) s
    | _ => failAt (.methodNameNotString v.type) p stack s
  | .methodFunction name p maker methods plan =>
    if v.isCallable then
      nextMember maker (methods.put name v) plan stack
        (s.nameClosure v (plan.name ++ "." ++ name))
    else failAt (.methodNotFunction name v.type) p stack s
  | .construct created => giving created stack s
  | .builtin pending => reply (pending.resume s v) stack

/-- A fault that passes an application; the first one that it passes gives it its place. -/
def located (op : Expr) (fault : Fault) : Fault :=
  match fault.place with
  | some _ => fault
  | none => { fault with place := some op.pos }

/-- Let a fault pass a frame. -/
def unwind (fault : Fault) (frame : Frame) (stack : List Frame) (s : Store) : Machine :=
  match frame with
  | .application op => raising (located op fault) stack { s with depth := s.depth - 1 }
  | .traced name => raising fault stack (s.record .ends name)
  | _ => raising fault stack s

/-- One step: the next state, or the outcome if the stack is empty. -/
@[inline] def step (limits : Limits) : Machine → Machine ⊕ Outcome
  | evaluating e scope stack s => .inl (eval limits e scope stack s)
  | calling f args stack s => .inl (call f args stack s)
  | giving v [] s => .inr ⟨.ok v, s⟩
  | giving v (frame :: stack) s => .inl (resume v frame stack s)
  | raising fault [] s => .inr ⟨.error fault, s⟩
  | raising fault (frame :: stack) s => .inl (unwind fault frame stack s)

/-- Step until there is an outcome, at most the given number of times. -/
def run (limits : Limits) : Nat → Machine → Option Outcome
  | 0, _ => none
  | n + 1, m =>
    match step limits m with
    | .inl m => run limits n m
    | .inr outcome => some outcome

end Machine

end TinyScript
