import TinyScript.Builtin.Basic
import TinyScript.Fault

/-!
# Values

Numbers, texts and booleans are values by themselves. Arrays, closures, classes and instances are
references into the store, so that two names can share one of them; two references are equal when
they lead to the same thing.
-/

namespace TinyScript

/-- The number of a scope in the store. -/
abbrev ScopeRef := Nat

/-- The number of an array in the store. -/
abbrev ArrayRef := Nat

/-- The number of a closure in the store. -/
abbrev ClosureRef := Nat

/-- The number of a class in the store. -/
abbrev ClassRef := Nat

/-- The number of an instance in the store. -/
abbrev InstanceRef := Nat

/-- The values of the language. A builtin also carries the scope it was bound in, since each top
scope has builtins of its own; `absent` is never made by a program, only by a host. -/
inductive Value where
  | number (x : Float)
  | string (s : Text)
  | boolean (b : Bool)
  | array (ref : ArrayRef)
  | closure (ref : ClosureRef)
  | builtin (b : Builtin) (home : ScopeRef)
  | classRef (ref : ClassRef)
  | object (ref : InstanceRef)
  | absent
deriving DecidableEq, Inhabited

namespace Value

/-- The type of a value. -/
def type : Value → ValueType
  | number _ => .number
  | string _ => .string
  | boolean _ => .boolean
  | array _ => .array
  | closure _ => .function
  | builtin _ _ => .function
  | classRef _ => .classType
  | object _ => .instanceType
  | absent => .unknown

/-- Only the boolean false counts as false. -/
def isTruthy : Value → Bool
  | boolean b => b
  | _ => true

/-- Whether a value can stand in operator position. -/
def isCallable : Value → Bool
  | closure _ | builtin _ _ | classRef _ => true
  | _ => false

/-- Equality as programs see it: numbers as doubles, where NaN differs from itself and the two
zeros are equal, and everything else by value or identity. -/
def same : Value → Value → Bool
  | number x, number y => x == y
  | a, b => a == b

/-- A number, wanted by an operation. -/
@[inline] def toNumber (operation : Text) : Value → Except Cause Float
  | number x => .ok x
  | v => .error (.wrongType operation .number v.type)

/-- A text, wanted by an operation. -/
@[inline] def toText (operation : Text) : Value → Except Cause Text
  | string s => .ok s
  | v => .error (.wrongType operation .string v.type)

/-- An array, wanted by an operation. -/
@[inline] def toArray (operation : Text) : Value → Except Cause ArrayRef
  | array r => .ok r
  | v => .error (.wrongType operation .array v.type)

/-- A callable value, wanted by an operation. -/
@[inline] def toCallable (operation : Text) (v : Value) : Except Cause Value :=
  if v.isCallable then .ok v else .error (.wrongType operation .function v.type)

/-- An instance, wanted by an operation. -/
@[inline] def toInstance (operation : Text) : Value → Except Cause InstanceRef
  | object r => .ok r
  | v => .error (.wrongType operation .instanceOfClass v.type)

end Value

end TinyScript
