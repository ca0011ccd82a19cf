import TinyScript.Builtin.Help
import TinyScript.Builtin.Pending
import TinyScript.Text.Blank
import TinyScript.Text.Lower
import TinyScript.Text.Search

/-!
# What builtins do

A builtin first checks how many arguments it got, against its signature, then looks at them in
order. Every access to an argument, an element or a part of a sequence is checked, and so is the
number of times that a text is repeated. What is outside its bounds would be the cause `outOfRange`.

All builtins of the catalogue are here: those on numbers, truth values and texts, on arrays, on
instances, and those that print or ask for chance. A builtin either gives a result that may depend
on the store but does not change it (`pureResult?`), or it acts on the store (`effect`), where it
may also ask for a call. Builtins that a host adds of its own are left out.
-/

namespace TinyScript.Builtin

/-- The argument at a place. -/
def argument (args : List Value) (i : Nat) : Except Cause Value :=
  match args[i]? with
  | some v => .ok v
  | none => .error .outOfRange

/-- The arguments from a place on. -/
def argumentsFrom (args : List Value) (i : Nat) : Except Cause (List Value) :=
  if i ≤ args.length then .ok (args.drop i) else .error .outOfRange

/-- The part of an array from one place up to, not including, another one. -/
def part {α : Type} (xs : Array α) (first stop : Nat) : Except Cause (List α) :=
  if first ≤ stop ∧ stop ≤ xs.size then .ok (xs.extract first stop).toList else .error .outOfRange

/-- The element of an array at a place. -/
def item {α : Type} (xs : Array α) (i : Nat) : Except Cause α :=
  match xs[i]? with
  | some x => .ok x
  | none => .error .outOfRange

/-- The number argument at a place. -/
@[inline] def numberAt (b : Builtin) (args : List Value) (i : Nat) : Except Cause Float := do
  let v ← argument args i
  v.toNumber b.label

/-- The text argument at a place. -/
@[inline] def textAt (b : Builtin) (args : List Value) (i : Nat) : Except Cause Text := do
  let v ← argument args i
  v.toText b.label

/-- The array argument at a place. -/
@[inline] def arrayAt (b : Builtin) (args : List Value) (i : Nat) : Except Cause ArrayRef := do
  let v ← argument args i
  v.toArray b.label

/-- The callable argument at a place. -/
@[inline] def callableAt (b : Builtin) (args : List Value) (i : Nat) : Except Cause Value := do
  let v ← argument args i
  v.toCallable b.label

/-- The instance argument at a place. -/
@[inline] def instanceAt (b : Builtin) (args : List Value) (i : Nat) : Except Cause InstanceRef := do
  let v ← argument args i
  v.toInstance b.label

/-- The integer argument at a place. -/
def indexAt (b : Builtin) (args : List Value) (i : Nat) : Except Cause Int := do
  let x ← numberAt b args i
  match Number.toIndex? x with
  | some n => pure n
  | none => throw (.indexNotInteger b.label (Number.display x))

/-- The optional number argument at a place, as a position among `n` things; the end if missing. -/
def stopAt (b : Builtin) (args : List Value) (i n : Nat) (fromEnd : Bool) : Except Cause Nat :=
  if i < args.length then do
    let x ← numberAt b args i
    pure (Number.clamp x n fromEnd)
  else pure n

/-- Whether one value comes before another: numbers as doubles, texts bytewise, nothing else. -/
def comesBefore (operation : Text) : Value → Value → Except Cause Bool
  | .number x, .number y => .ok (x < y)
  | .string s, .string t => .ok (s.less t)
  | a, b => .error (.incomparable operation a.type b.type)

/-- Compare two arguments; the test gets whether the first comes before the second, and whether the
second comes before the first. -/
def compare (b : Builtin) (test : Bool → Bool → Bool) (args : List Value) : Except Cause Value := do
  let x ← argument args 0
  let y ← argument args 1
  let less ← comesBefore b.label x y
  let greater ← comesBefore b.label y x
  pure (.boolean (test less greater))

/-- Combine two numbers. -/
def arithmetic (b : Builtin) (op : Float → Float → Float) (args : List Value) :
    Except Cause Value := do
  let x ← numberAt b args 0
  let y ← numberAt b args 1
  pure (.number (op x y))

/-- Change a number. -/
def unary (b : Builtin) (op : Float → Float) (args : List Value) : Except Cause Value := do
  let x ← numberAt b args 0
  pure (.number (op x))

/-- Combine numbers from left to right; NaN ends the search. -/
def extreme (b : Builtin) (op : Float → Float → Float) (best : Float) :
    List Value → Except Cause Value
  | [] => .ok (.number best)
  | v :: rest => do
    let x ← v.toNumber b.label
    if x.isNaN then pure (.number x) else extreme b op (op best x) rest

/-- The number of characters in front of an offset. -/
def lengthBefore (t : Text) (i : Nat) : Except Cause Nat :=
  if i ≤ t.size then .ok (t.take i).length else .error .outOfRange

/-- The position of the first occurrence of a value in an array, or of a text in a text. -/
def position? (b : Builtin) (s : Store) (args : List Value) : Except Cause (Option Nat) := do
  let haystack ← argument args 0
  let needle ← argument args 1
  match haystack with
  | .array r => pure ((s.items r).findIdx? fun v => v.same needle)
  | .string t =>
    let n ← needle.toText b.label
    match t.find? n with
    | some i => do
      let count ← lengthBefore t i
      pure (some count)
    | none => pure none
  | v => throw (.wrongType b.label .arrayOrString v.type)

/-- The number of bytes that a repeated text may have at most. -/
def longestText : Nat := 0x20000000

/-- The greatest size that can be counted. -/
def greatestSize : Nat := 0x7FFFFFFFFFFFFFFF

/-- A text a number of times, which must not be negative, nor the result too large to be counted. -/
def copies (t : Text) (count : Int) : Except Cause Text :=
  if 0 ≤ count ∧ t.size * count.toNat ≤ greatestSize then .ok (t.times count.toNat)
  else .error .outOfRange

/-- A text a number of times, if it does not get too long. -/
def repeated (t : Text) (count : Int) : Except Cause Text :=
  if count < 0 then .error (.negativeCount count)
  else if 0 < count ∧ longestText / count.toNat < t.size then .error (.resultTooLong longestText)
  else copies t count

/-- The part of a text between two positions, counted in characters. -/
def textPart (t : Text) (first stop : Nat) : Except Cause Value :=
  if first ≤ stop ∧ stop ≤ t.length then .ok (.string (t.part first stop).mended)
  else .error .outOfRange

/-- What a builtin does that gives back a value at once and changes nothing. -/
def pureResult? (b : Builtin) (s : Store) (args : List Value) : Option (Except Cause Value) :=
  match b with
  | add => some do
    let x ← argument args 0
    let y ← argument args 1
    match x, y with
    | .string _, _ => pure (.string (s.display x ++ s.display y))
    | _, .string _ => pure (.string (s.display x ++ s.display y))
    | _, _ => arithmetic b (· + ·) args
  | subtract => some (arithmetic b (· - ·) args)
  | multiply => some (arithmetic b (· * ·) args)
  | divide => some (arithmetic b (· / ·) args)
  | equal => some do
    let x ← argument args 0
    let y ← argument args 1
    pure (.boolean (x.same y))
  | notEqual => some do
    let x ← argument args 0
    let y ← argument args 1
    pure (.boolean (!x.same y))
  | less => some (compare b (fun less _ => less) args)
  | greater => some (compare b (fun _ greater => greater) args)
  | lessEqual => some (compare b (fun _ greater => !greater) args)
  | greaterEqual => some (compare b (fun less _ => !less) args)
  | conjunction => some do
    let x ← argument args 0
    let y ← argument args 1
    pure (if x.isTruthy then y else x)
  | disjunction => some do
    let x ← argument args 0
    let y ← argument args 1
    pure (if x.isTruthy then x else y)
  | negation => some do
    let x ← argument args 0
    pure (.boolean (!x.isTruthy))
  | abs => some (unary b Float.abs args)
  | floor => some (unary b Number.floor args)
  | ceil => some (unary b Number.ceil args)
  | round => some (unary b Number.round args)
  | min => some (extreme b Number.lesser (1.0 / 0.0) args)
  | max => some (extreme b Number.greater (-1.0 / 0.0) args)
  | typeOf => some do
    let x ← argument args 0
    pure (.string (Text.ofString x.type.name))
  | concat => some (pure (.string (Text.concat (args.map s.display))))
  | substring => some do
    let t ← textAt b args 0
    let x ← numberAt b args 1
    let size := t.length
    let first := Number.clamp x size false
    let stop ← stopAt b args 2 size false
    if stop < first then textPart t stop first else textPart t first stop
  | charAt => some do
    let t ← textAt b args 0
    let x ← numberAt b args 1
    let size := t.length
    let i := Number.truncate (-1) size x
    if x.isNaN ∨ i < 0 ∨ size ≤ i then pure (.string Text.empty)
    else textPart t i.toNat (i.toNat + 1)
  | toLowerCase => some do
    let t ← textAt b args 0
    pure (.string t.toLower)
  | toUpperCase => some do
    let t ← textAt b args 0
    pure (.string t.toUpper)
  | trim => some do
    let t ← textAt b args 0
    pure (.string t.trim)
  | replace => some do
    let t ← textAt b args 0
    let needle ← textAt b args 1
    let replacement ← textAt b args 2
    pure (.string (t.replaceFirst needle replacement))
  | startsWith => some do
    let t ← textAt b args 0
    let start ← textAt b args 1
    pure (.boolean (t.startsWith start))
  | endsWith => some do
    let t ← textAt b args 0
    let ending ← textAt b args 1
    pure (.boolean (t.endsWith ending))
  | repeatText => some do
    let t ← textAt b args 0
    let count ← indexAt b args 1
    let result ← repeated t count
    pure (.string result)
  | length => some do
    match ← argument args 0 with
    | .array r => pure (.number (Float.ofNat (s.items r).size))
    | .string t => pure (.number (Float.ofNat t.length))
    | v => throw (.wrongType b.label .arrayOrString v.type)
  | element => some do
    let r ← arrayAt b args 0
    match ← argument args 1 with
    | .number _ =>
      let i ← indexAt b args 1
      if i < 0 ∨ (s.items r).size ≤ i then throw (.indexOutOfBounds i (s.items r).size)
      else item (s.items r) i.toNat
    | v => throw (.wrongType b.label .numberIndex v.type)
  | join => some do
    let r ← arrayAt b args 0
    let sep ← if 1 < args.length then textAt b args 1 else pure ","
    pure (.string (Text.join sep ((s.items r).toList.map s.display)))
  | includes => some do
    let found ← position? b s args
    pure (.boolean found.isSome)
  | indexOf => some do
    let found ← position? b s args
    pure (.number (match found with
      | some i => Float.ofNat i
      | none => -1))
  | get => some do
    let r ← instanceAt b args 0
    let field ← textAt b args 1
    pure (((s.fields r).get? field).getD (.boolean false))
  | undeclared => some (pure (.boolean false))
  | _ => none

/-- The start of a builtin that calls its second argument on the elements of its first one. -/
def callback (b : Builtin) (s : Store) (args : List Value)
    (start : Store → Value → List Value → Reply) : Except Cause (Store → Reply) := do
  let r ← arrayAt b args 0
  let f ← callableAt b args 1
  let items := (s.items r).toList
  pure fun s => start s f items

/-- What a builtin does that changes the store or calls back. The store is looked at first; what is
to be done with it is the result. -/
def effect (b : Builtin) (s : Store) (args : List Value) : Except Cause (Store → Reply) :=
  match b with
  | random => pure fun s =>
    let (x, s) := s.random
    .value (.number x) s
  | split => do
    let t ← textAt b args 0
    let sep ← textAt b args 1
    pure fun s => Reply.array s ((t.split sep).map .string)
  | array => pure fun s => Reply.array s args
  | push => do
    let r ← arrayAt b args 0
    let more ← argumentsFrom args 1
    pure fun s =>
      let s := s.pushItems r more
      .value (.number (Float.ofNat (s.items r).size)) s
  | pop => do
    let r ← arrayAt b args 0
    if (s.items r).isEmpty then pure (.value (.boolean false))
    else do
      let v ← item (s.items r) ((s.items r).size - 1)
      pure fun s => .value v (s.popItem r)
  | slice => do
    match ← argument args 0 with
    | .array r =>
      let size := (s.items r).size
      let x ← numberAt b args 1
      let first := Number.clamp x size true
      let stop ← stopAt b args 2 size true
      let chosen ← part (s.items r) first (Nat.max first stop)
      pure fun s => Reply.array s chosen
    | .string t =>
      let size := t.length
      let x ← numberAt b args 1
      let first := Number.clamp x size true
      let stop ← stopAt b args 2 size true
      let v ← textPart t first (Nat.max first stop)
      pure (.value v)
    | v => throw (.wrongType b.label .arrayOrString v.type)
  | map => callback b s args fun s f items => Reply.map s f [] items
  | filter => callback b s args fun s f items => Reply.filter s f [] items
  | forEach => callback b s args Reply.visit
  | find => callback b s args Reply.find
  | reduce => do
    let r ← arrayAt b args 0
    let f ← callableAt b args 1
    let acc ← argument args 2
    let items := (s.items r).toList
    pure fun s => Reply.fold s f acc items
  | sort => do
    let r ← arrayAt b args 0
    let query := Sorting.sort (s.items r).toList
    if 1 < args.length then
      let f ← callableAt b args 1
      pure fun s => Reply.sort s f query
    else
      let items ← query.run (comesBefore b.label)
      pure fun s => Reply.array s items
  | reverse => do
    let r ← arrayAt b args 0
    let items := (s.items r).toList.reverse
    pure fun s => Reply.array s items
  | put => do
    let r ← instanceAt b args 0
    let field ← textAt b args 1
    let v ← argument args 2
    pure fun s => .value v (s.putField r field v)
  | call => do
    let r ← instanceAt b args 0
    let name ← textAt b args 1
    let more ← argumentsFrom args 2
    match s.method? r name with
    | some f => pure (.become f (.object r :: more))
    | none => throw (.unknownMethod (s.className (s.parentOf r)) name)
  | print => do
    let v ← argument args 0
    let line := s.display v ++ "\n"
    pure fun s =>
      let written := { s with output := s.output.write line }
      match s.output.refusal? with
      | none => .value v written
      | some why => .failure (.host ("print: " ++ why)) written
  | help => do
    let name ← if 0 < args.length then textAt b args 0 else pure Text.empty
    let lines ← Help.lines name
    pure fun s => .value (.boolean true) { s with output := s.output.writeAll lines }
  | _ => throw .outOfRange

/-- Whether the number of arguments is allowed. -/
def checkArity (b : Builtin) (count : Nat) : Except Cause Unit :=
  if count < b.signature.least then .error (.tooFewArguments b.label b.signature.least count)
  else
    match b.signature.most with
    | some most => if most < count then .error (.tooManyArguments b.label most count) else .ok ()
    | none => .ok ()

/-- Call a builtin. -/
def run (b : Builtin) (s : Store) (args : List Value) : Reply :=
  match checkArity b args.length with
  | .error cause => .failure cause s
  | .ok () =>
    match pureResult? b s args with
    | some (.ok v) => .value v s
    | some (.error cause) => .failure cause s
    | none =>
      match effect b s args with
      | .ok act => act s
      | .error cause => .failure cause s

end TinyScript.Builtin
