import TinyScript.Source.Expr
import TinyScript.Store.Bindings
import TinyScript.Store.Output
import TinyScript.Store.Supply

/-!
# The store

Everything that a running program can read or change: scopes, arrays, closures, classes,
instances, the output, the recorded events, and the counters of the evaluator. Things are only
ever added, so a reference stays good.

A scope is a table of names inside another scope, and the three ways to use it are to bind a name,
to change a name where it is bound, and to look one up. That things which can no longer be reached
take up no room is left out, as no program can tell.
-/

namespace TinyScript

/-- A lexical scope: its own bindings and the scope around it. -/
structure Scope where
  outer : Option ScopeRef
  bindings : Bindings
deriving Inhabited

/-- A function made by a program: parameters, body, and the scope it was made in. The name is
empty until the closure is first bound to one. -/
structure Closure where
  name : Text
  params : List Text
  body : Expr
  scope : ScopeRef
deriving Inhabited

/-- The methods of a class by their names, and the names in the order in which they were first
given. -/
structure Methods where
  table : Bindings
  order : List Text
deriving Inhabited

namespace Methods

/-- No methods. -/
def empty : Methods := ⟨.empty, []⟩

/-- The method with a name. -/
def get? (m : Methods) (name : Text) : Option Value := m.table.get? name

/-- Add a method; a name that is given again keeps its place and gets the later function. -/
def put (m : Methods) (name : Text) (f : Value) : Methods where
  table := m.table.put name f
  order := if (m.table.get? name).isSome then m.order else m.order ++ [name]

end Methods

/-- A class: the callable that sets up new instances, and the methods. -/
structure ClassInfo where
  name : Text
  maker : Value
  methods : Methods
deriving Inhabited

/-- An instance of a class with its fields; the label tells instances apart in print. -/
structure Instance where
  parent : ClassRef
  label : Text
  fields : Bindings
deriving Inhabited

/-- The two ends of a recorded call. -/
inductive Phase where
  | begins
  | ends
deriving DecidableEq, Inhabited, Repr

/-- The begin or end of a call, by the name of what was called. -/
structure CallEvent where
  name : Text
  phase : Phase
deriving DecidableEq, Inhabited

/-- Everything that a running program can read or change. -/
structure Store where
  scopes : Array Scope
  arrays : Array (Array Value)
  closures : Array Closure
  classes : Array ClassInfo
  instances : Array Instance
  output : Output
  events : Option (List CallEvent)
  supply : Supply
  steps : Nat
  depth : Nat
deriving Inhabited

namespace Store

/-- A store with nothing in it, with the standard supply; events are recorded if `traced`. -/
def empty (output : Output) (traced : Bool) : Store where
  scopes := #[]
  arrays := #[]
  closures := #[]
  classes := #[]
  instances := #[]
  output := output
  events := if traced then some [] else none
  supply := .standard
  steps := 0
  depth := 0

/-- Make a scope inside another one. -/
def newScope (s : Store) (outer : Option ScopeRef) (bindings : Bindings) : ScopeRef × Store :=
  (s.scopes.size, { s with scopes := s.scopes.push ⟨outer, bindings⟩ })

/-- The scopes seen from a scope, nearest first, at most the given number of them. -/
def chainFrom (scopes : Array Scope) : Nat → ScopeRef → List ScopeRef
  | 0, _ => []
  | n + 1, e =>
    match scopes[e]? with
    | none => []
    | some scope =>
      match scope.outer with
      | none => [e]
      | some o => e :: chainFrom scopes n o

/-- The scopes seen from a scope, nearest first. An outer scope is always an older one, so there
are at most as many as there are scopes up to this one. -/
def chain (scopes : Array Scope) (e : ScopeRef) : List ScopeRef := chainFrom scopes (e + 1) e

/-- The nearest scope that binds a name, and the value there, among at most the given number of
scopes. -/
def resolveFrom (scopes : Array Scope) (name : Text) : Nat → ScopeRef → Option (ScopeRef × Value)
  | 0, _ => none
  | n + 1, e =>
    match scopes[e]? with
    | none => none
    | some scope =>
      match scope.bindings.get? name with
      | some v => some (e, v)
      | none =>
        match scope.outer with
        | none => none
        | some o => resolveFrom scopes name n o

/-- The nearest scope that binds a name, and the value there. -/
def resolve (s : Store) (e : ScopeRef) (name : Text) : Option (ScopeRef × Value) :=
  resolveFrom s.scopes name (e + 1) e

/-- The nearest scope that binds a name. -/
def owner (s : Store) (e : ScopeRef) (name : Text) : Option ScopeRef :=
  (s.resolve e name).map Prod.fst

/-- The value of a name seen from a scope. -/
def lookup (s : Store) (e : ScopeRef) (name : Text) : Option Value :=
  (s.resolve e name).map Prod.snd

/-- Bind a name in a scope itself, whatever the scopes around it bind. -/
def define (s : Store) (e : ScopeRef) (name : Text) (v : Value) : Store :=
  { s with scopes := s.scopes.modify e fun scope =>
      { scope with bindings := scope.bindings.put name v } }

/-- Change the nearest binding of a name; nothing if there is none. -/
def assign? (s : Store) (e : ScopeRef) (name : Text) (v : Value) : Option Store :=
  (s.owner e name).map fun o => s.define o name v

/-- The names that a scope itself binds. -/
def ownNames (s : Store) (e : ScopeRef) : List Text :=
  match s.scopes[e]? with
  | some scope => scope.bindings.names
  | none => []

/-- Some names and behind them the other ones that some scopes bind, scope by scope. -/
def gatherNames (s : Store) (seen : List Text) (scopes : List ScopeRef) : List Text :=
  scopes.foldl (fun seen o => seen ++ (s.ownNames o).filter (· ∉ seen)) seen

/-- All names seen from a scope: those of inner scopes first, and each of them once. -/
def names (s : Store) (e : ScopeRef) : List Text := s.gatherNames [] (chain s.scopes e)

/-- All names seen from a scope, in increasing order. -/
def visibleNames (s : Store) (e : ScopeRef) : List Text := Text.sorted (s.names e)

/-- Make an array. -/
def newArray (s : Store) (items : Array Value) : Value × Store :=
  (.array s.arrays.size, { s with arrays := s.arrays.push items })

/-- The elements of an array. -/
def items (s : Store) (r : ArrayRef) : Array Value := s.arrays[r]?.getD #[]

/-- Append elements to an array in place. -/
def pushItems (s : Store) (r : ArrayRef) (vs : List Value) : Store :=
  { s with arrays := s.arrays.modify r fun xs => vs.foldl Array.push xs }

/-- Take the last element off an array in place. -/
def popItem (s : Store) (r : ArrayRef) : Store := { s with arrays := s.arrays.modify r Array.pop }

/-- Make a closure without a name. -/
def newClosure (s : Store) (params : List Text) (body : Expr) (scope : ScopeRef) : Value × Store :=
  (.closure s.closures.size,
    { s with closures := s.closures.push ⟨Text.empty, params, body, scope⟩ })

/-- Name a value if it is a closure that has no name yet. -/
def nameClosure (s : Store) (v : Value) (name : Text) : Store :=
  match v with
  | .closure r =>
    { s with closures := s.closures.modify r fun c =>
        if c.name.isEmpty then { c with name := name } else c }
  | _ => s

/-- Make a class. -/
def newClass (s : Store) (info : ClassInfo) : Value × Store :=
  (.classRef s.classes.size, { s with classes := s.classes.push info })

/-- The name of a class. -/
def className (s : Store) (r : ClassRef) : Text :=
  (s.classes[r]?.map ClassInfo.name).getD Text.empty

/-- Make an instance with a given label. -/
def newInstance (s : Store) (parent : ClassRef) (label : Text) : Value × Store :=
  (.object s.instances.size, { s with instances := s.instances.push ⟨parent, label, .empty⟩ })

/-- Make the next instance of a class, with the next label of the supply. -/
def bear (s : Store) (parent : ClassRef) : Value × Store :=
  newInstance { s with supply := s.supply.bear } parent s.supply.label

/-- The class of an instance. -/
def parentOf (s : Store) (r : InstanceRef) : ClassRef :=
  (s.instances[r]?.map Instance.parent).getD 0

/-- The fields of an instance. -/
def fields (s : Store) (r : InstanceRef) : Bindings :=
  (s.instances[r]?.map Instance.fields).getD .empty

/-- Write a field of an instance. -/
def putField (s : Store) (r : InstanceRef) (name : Text) (v : Value) : Store :=
  { s with instances := s.instances.modify r fun i => { i with fields := i.fields.put name v } }

/-- The method of an instance's class with a name. -/
def method? (s : Store) (r : InstanceRef) (name : Text) : Option Value :=
  s.classes[s.parentOf r]?.bind fun info => info.methods.get? name

/-- Record the begin or end of a call, if events are recorded. -/
def record (s : Store) (phase : Phase) (name : Text) : Store :=
  match s.events with
  | some events => { s with events := some (⟨name, phase⟩ :: events) }
  | none => s

/-- The next random number of the supply. -/
def random (s : Store) : Float × Store := (s.supply.number, { s with supply := s.supply.draw })

end Store

end TinyScript
