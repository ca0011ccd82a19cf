import TinyScript.Proofs.Layers
import TinyScript.Proofs.PathTexts

/-!
# Stores that mirror each other

One store mirrors another one if it has the same things in it, behind things of its own: the scopes,
arrays, closures, classes and instances of the one stand in the other at places that are so many
further on, and refer to each other there as they do here. The two share their first scope, the top
scope. Everything that is done to both of them, at places that correspond, keeps this, and texts of
values that correspond are equal.
-/

namespace TinyScript

/-- How many scopes behind the first one, and how many arrays, closures, classes and instances a
store has in front of those that mirror another store, and what its output held before. -/
structure Renaming where
  scopes : Nat
  arrays : Nat
  closures : Nat
  classes : Nat
  instances : Nat
  written : List Text

namespace Renaming

variable (r : Renaming)

/-- Where a scope stands in the other store. -/
def scope (e : Nat) : Nat := if e = 0 then 0 else e + r.scopes

/-- A value of the other store. -/
def value : Value → Value
  | .array a => .array (a + r.arrays)
  | .closure c => .closure (c + r.closures)
  | .builtin b home => .builtin b (r.scope home)
  | .classRef c => .classRef (c + r.classes)
  | .object i => .object (i + r.instances)
  | v => v

/-- A closure of the other store. -/
def closure (c : Closure) : Closure := { c with scope := r.scope c.scope }

/-- A holder of the other store. -/
def holder : Holder → Holder
  | .array a => .array (a + r.arrays)
  | .object i => .object (i + r.instances)

/-- A piece of text of the other store. -/
def piece : Piece → Piece
  | .text t => .text t
  | .value v => .value (r.value v)

/-- The top scope is shared. -/
@[simp] theorem scope_zero : r.scope 0 = 0 := rfl

/-- Scopes other than the top scope stand further on. -/
theorem scope_of_pos {e : Nat} (h : 0 < e) : r.scope e = e + r.scopes :=
  if_neg (Nat.ne_of_gt h)

/-- Different scopes stand in different places. -/
theorem scope_injective : Function.Injective r.scope := by
  intro e e' h
  unfold scope at h
  split_ifs at h <;> omega

/-- No scope stands further in front. -/
theorem le_scope (e : Nat) : e ≤ r.scope e := by
  unfold scope
  split_ifs <;> omega

/-- Different values correspond to different values. -/
theorem value_injective : Function.Injective r.value := by
  intro v w h
  cases v <;> cases w <;> simp_all [value, r.scope_injective.eq_iff]

/-- Different holders correspond to different holders. -/
theorem holder_injective : Function.Injective r.holder := by
  intro h h' heq
  cases h <;> cases h' <;> simp_all [holder]

/-- Corresponding values have the same type. -/
@[simp] theorem type_value (v : Value) : (r.value v).type = v.type := by cases v <;> rfl

/-- Corresponding values are both true or both false. -/
@[simp] theorem isTruthy_value (v : Value) : (r.value v).isTruthy = v.isTruthy := by cases v <;> rfl

/-- Of corresponding values both or none can be called. -/
@[simp] theorem isCallable_value (v : Value) : (r.value v).isCallable = v.isCallable := by
  cases v <;> rfl

/-- Corresponding values are the same number, or fail as one for the same cause. -/
@[simp] theorem toNumber_value (operation : Text) (v : Value) :
    (r.value v).toNumber operation = v.toNumber operation := by cases v <;> rfl

/-- Corresponding values are the same text, or fail as one for the same cause. -/
@[simp] theorem toText_value (operation : Text) (v : Value) :
    (r.value v).toText operation = v.toText operation := by cases v <;> rfl

/-- Programs tell values apart as they tell apart those of the other store. -/
@[simp] theorem same_value (v w : Value) : (r.value v).same (r.value w) = v.same w := by
  have hother : (r.value v == r.value w) = (v == w) := by
    rw [Bool.eq_iff_iff, beq_iff_eq, beq_iff_eq, r.value_injective.eq_iff]
  cases v with
  | number x => cases w <;> rfl
  | _ => exact hother

/-- Corresponding values are corresponding holders, or none. -/
theorem holder?_value (v : Value) : Store.holder? (r.value v) = (Store.holder? v).map r.holder := by
  cases v <;> rfl

end Renaming

/-- What stands in one array stands, as something that corresponds to it, at a corresponding place
of another one, and the ends correspond. -/
structure Carried {α : Type} (place : Nat → Nat) (R : α → α → Prop) (xs ys : Array α) : Prop where
  get : ∀ i, Option.Rel R xs[i]? ys[place i]?
  size : ys.size = place xs.size

/-- Things that are related stay so if they are changed in ways that keep the relation. -/
theorem rel_map {α : Type} {R : α → α → Prop} {a b : Option α} (h : Option.Rel R a b)
    {f g : α → α} (hfg : ∀ x y, R x y → R (f x) (g y)) : Option.Rel R (a.map f) (b.map g) := by
  cases h with
  | none => exact .none
  | some hxy => exact .some (hfg _ _ hxy)

namespace Carried

variable {α : Type} {place : Nat → Nat} {R : α → α → Prop} {xs ys : Array α}

/-- At corresponding places there is nothing, or there are things that correspond. -/
theorem found (h : Carried place R xs ys) (i : Nat) :
    (xs[i]? = none ∧ ys[place i]? = none) ∨
      ∃ x y, xs[i]? = some x ∧ ys[place i]? = some y ∧ R x y := by
  have hget := h.get i
  generalize xs[i]? = x at hget
  generalize ys[place i]? = y at hget
  cases hget with
  | none => exact .inl ⟨rfl, rfl⟩
  | some hxy => exact .inr ⟨_, _, rfl, rfl, hxy⟩

/-- Related things may be added at both ends. -/
theorem push (h : Carried place R xs ys) (hplace : Function.Injective place)
    (hnext : place (xs.size + 1) = place xs.size + 1) {x y : α} (hxy : R x y) :
    Carried place R (xs.push x) (ys.push y) := by
  constructor
  · intro i
    simp only [Array.getElem?_push, h.size, hplace.eq_iff]
    split_ifs
    · exact .some hxy
    · exact h.get i
  · rw [Array.size_push, Array.size_push, h.size, hnext]

/-- Related things may be changed at corresponding places. -/
theorem modify (h : Carried place R xs ys) (hplace : Function.Injective place) (i : Nat)
    {f g : α → α} (hfg : ∀ x y, R x y → R (f x) (g y)) :
    Carried place R (xs.modify i f) (ys.modify (place i) g) := by
  constructor
  · intro j
    simp only [Array.getElem?_modify, hplace.eq_iff]
    split_ifs
    · exact rel_map (h.get j) hfg
    · exact h.get j
  · rw [Array.size_modify, Array.size_modify, h.size]

end Carried

/-- Bindings of the same names to values that correspond. -/
def Bindings.Mirrors (r : Renaming) (b b' : Bindings) : Prop :=
  ∀ name, b'.get? name = (b.get? name).map r.value

namespace Bindings.Mirrors

variable {r : Renaming} {b b' : Bindings}

/-- No bindings mirror no bindings. -/
theorem empty : Bindings.empty.Mirrors r Bindings.empty := fun name => by simp

/-- Corresponding values may be bound to the same name. -/
theorem put (h : b.Mirrors r b') (name : Text) (v : Value) :
    (b.put name v).Mirrors r (b'.put name (r.value v)) := by
  intro other
  rw [get?_put, get?_put]
  split_ifs
  · rfl
  · exact h other

/-- Bindings of the same names to corresponding values mirror each other. -/
theorem ofList (entries : List (Text × Value)) :
    (Bindings.ofList entries).Mirrors r
      (.ofList (entries.map fun entry => (entry.1, r.value entry.2))) := by
  have hfold : ∀ (entries : List (Text × Value)) (b b' : Bindings), b.Mirrors r b' →
      (entries.foldl (fun b entry => b.put entry.1 entry.2) b).Mirrors r
        ((entries.map fun entry => (entry.1, r.value entry.2)).foldl
          (fun b entry => b.put entry.1 entry.2) b') := by
    intro entries
    induction entries with
    | nil => exact fun b b' hb => hb
    | cons entry entries ih => exact fun b b' hb => ih _ _ (hb.put entry.1 entry.2)
  exact hfold entries _ _ empty

/-- The names stand in the same order. -/
theorem toList (h : b.Mirrors r b') :
    b'.toList = b.toList.map fun entry => (entry.1, r.value entry.2) := by
  have hequiv : (b.tree.map fun _ v => r.value v).Equiv b'.tree := by
    refine Std.TreeMap.Equiv.of_forall_constGet?_eq fun name => ?_
    have hname : b'.tree[name]? = b.tree[name]?.map r.value := h name
    change (b.tree.map fun _ v => r.value v)[name]? = b'.tree[name]?
    rw [Std.TreeMap.getElem?_map, hname]
  rw [Bindings.toList, ← hequiv.toList_eq, Std.TreeMap.toList_map, Bindings.toList]

end Bindings.Mirrors

/-- The same names in the same order, with methods that correspond. -/
structure Methods.Mirrors (r : Renaming) (m m' : Methods) : Prop where
  table : m.table.Mirrors r m'.table
  order : m'.order = m.order

namespace Methods.Mirrors

variable {r : Renaming} {m m' : Methods}

/-- No methods mirror no methods. -/
theorem empty : Methods.empty.Mirrors r Methods.empty := ⟨.empty, rfl⟩

/-- Corresponding methods may be added under the same name. -/
theorem put (h : m.Mirrors r m') (name : Text) (v : Value) :
    (m.put name v).Mirrors r (m'.put name (r.value v)) where
  table := h.table.put name v
  order := by simp only [Methods.put, h.table name, h.order, Option.isSome_map]

end Methods.Mirrors

/-- A scope inside the corresponding one, with corresponding bindings. -/
structure Scope.Mirrors (r : Renaming) (scope scope' : Scope) : Prop where
  outer : scope'.outer = scope.outer.map r.scope
  bindings : scope.bindings.Mirrors r scope'.bindings

/-- A class of the same name with a corresponding maker and corresponding methods. -/
structure ClassInfo.Mirrors (r : Renaming) (info info' : ClassInfo) : Prop where
  name : info'.name = info.name
  maker : info'.maker = r.value info.maker
  methods : info.methods.Mirrors r info'.methods

/-- An instance of the corresponding class with the same label and corresponding fields. -/
structure Instance.Mirrors (r : Renaming) (i i' : Instance) : Prop where
  parent : i'.parent = i.parent + r.classes
  label : i'.label = i.label
  fields : i.fields.Mirrors r i'.fields

/-- The same text has been written behind what was there before, and every write is taken. -/
structure Output.Mirrors (r : Renaming) (o o' : Output) : Prop where
  written : o'.written = o.written ++ r.written
  isOpen : o.Open
  isOpen' : o'.Open

/-- The labels that are still to come are the same, in the same order. -/
def Supply.SameLabels (s s' : Supply) : Prop :=
  ∀ n, s'.labels (s'.born + n) = s.labels (s.born + n)

namespace Supply.SameLabels

variable {s s' : Supply}

/-- The next label is the same. -/
theorem label (h : s.SameLabels s') : s'.label = s.label := h 0

/-- Without the next label, the others are still the same. -/
theorem bear (h : s.SameLabels s') : s.bear.SameLabels s'.bear := by
  intro n
  have hnext := h (n + 1)
  rw [Nat.add_comm n 1, ← Nat.add_assoc, ← Nat.add_assoc] at hnext
  exact hnext

end Supply.SameLabels

/-- One store mirrors another one, behind things of its own. -/
structure Store.Mirrors (r : Renaming) (s s' : Store) : Prop where
  scopes : Carried r.scope (Scope.Mirrors r) s.scopes s'.scopes
  top : 0 < s.scopes.size
  arrays : Carried (· + r.arrays) (fun xs ys => ys = xs.map r.value) s.arrays s'.arrays
  closures : Carried (· + r.closures) (fun c c' => c' = r.closure c) s.closures s'.closures
  classes : Carried (· + r.classes) (ClassInfo.Mirrors r) s.classes s'.classes
  instances : Carried (· + r.instances) (Instance.Mirrors r) s.instances s'.instances
  labels : s.supply.SameLabels s'.supply
  output : s.output.Mirrors r s'.output
  events : s'.events.isSome = s.events.isSome
  steps : s'.steps = s.steps
  depth : s'.depth = s.depth

/-- The same write on both sides comes behind what was there before. -/
theorem Output.Mirrors.write {r : Renaming} {o o' : Output} (h : o.Mirrors r o') (t : Text) :
    (o.write t).Mirrors r (o'.write t) where
  written := by
    rw [Output.write_of_taken h.isOpen.refusal?_eq_none,
      Output.write_of_taken h.isOpen'.refusal?_eq_none]
    exact congrArg (t :: ·) h.written
  isOpen := (Output.Extends.write o t).isOpen h.isOpen
  isOpen' := (Output.Extends.write o' t).isOpen h.isOpen'

/-- The same writes on both sides come behind what was there before. -/
theorem Output.Mirrors.writeAll {r : Renaming} {o o' : Output} (h : o.Mirrors r o')
    (ts : List Text) : (o.writeAll ts).Mirrors r (o'.writeAll ts) := by
  induction ts generalizing o o' with
  | nil => exact h
  | cons t ts ih => exact ih (h.write t)

/-- The text of an output is that of the mirrored one behind what was there before. -/
theorem Output.Mirrors.text {r : Renaming} {o o' : Output} (h : o.Mirrors r o') :
    o'.text = Text.concat r.written.reverse ++ o.text := by
  rw [Output.text, h.written, List.reverse_append, Text.concat_append, Output.text]

namespace Store.Mirrors

variable {r : Renaming} {s s' : Store}

/-- The counters of both stores may be set alike. -/
theorem counters (h : s.Mirrors r s') (steps depth : Nat) :
    { s with steps := steps, depth := depth }.Mirrors r
      { s' with steps := steps, depth := depth } :=
  { h with steps := rfl, depth := rfl }

/-- The next scopes of both stores correspond. -/
theorem scopes_size (h : s.Mirrors r s') : s'.scopes.size = r.scope s.scopes.size := h.scopes.size

/-- New scopes with corresponding bindings inside corresponding scopes correspond. -/
theorem newScope (h : s.Mirrors r s') {outer outer' : Option ScopeRef} {b b' : Bindings}
    (houter : outer' = outer.map r.scope) (hb : b.Mirrors r b') :
    (s.newScope outer b).2.Mirrors r (s'.newScope outer' b').2 := by
  have hnext : r.scope (s.scopes.size + 1) = r.scope s.scopes.size + 1 := by
    rw [r.scope_of_pos (Nat.succ_pos _), r.scope_of_pos h.top]
    omega
  exact { h with
    scopes := h.scopes.push r.scope_injective hnext ⟨houter, hb⟩
    top := by simp [Store.newScope] }

/-- The same name may be bound to corresponding values in corresponding scopes. -/
theorem define (h : s.Mirrors r s') (e : ScopeRef) (name : Text) (v : Value) :
    (s.define e name v).Mirrors r (s'.define (r.scope e) name (r.value v)) :=
  { h with
    scopes := h.scopes.modify r.scope_injective e
      (f := fun scope => { scope with bindings := scope.bindings.put name v })
      (g := fun scope => { scope with bindings := scope.bindings.put name (r.value v) })
      fun _ _ hscope => ⟨hscope.outer, hscope.bindings.put name v⟩
    top := by simpa [Store.define] using h.top }

/-- A name is found in the corresponding scope. Outer scopes being older ones, both searches are
long enough. -/
theorem resolveFrom (h : s.Mirrors r s') (hs : s.Layered) (name : Text) {n n' e : Nat} (hn : e < n)
    (hn' : e < n') :
    Store.resolveFrom s'.scopes name n' (r.scope e) =
      (Store.resolveFrom s.scopes name n e).map fun found =>
        (r.scope found.1, r.value found.2) := by
  induction n generalizing n' e with
  | zero => exact absurd hn (Nat.not_lt_zero e)
  | succ n ih =>
    obtain ⟨n', rfl⟩ : ∃ k, n' = k + 1 := ⟨n' - 1, by omega⟩
    rw [Store.resolveFrom, Store.resolveFrom]
    rcases h.scopes.found e with ⟨hnone, hnone'⟩ | ⟨scope, scope', hscope, hscope', hmirrors⟩
    · rw [hnone, hnone']
      rfl
    · rw [hscope, hscope']
      dsimp only
      rw [hmirrors.bindings name]
      cases scope.bindings.get? name with
      | some v => rfl
      | none =>
        dsimp only [Option.map_none]
        rw [hmirrors.outer]
        cases ho : scope.outer with
        | none => rfl
        | some o =>
          have hlt : o < e := hs.outer e o (by rw [outer?_eq_some hscope, ho])
          exact ih (Nat.lt_of_lt_of_le hlt (Nat.le_of_lt_succ hn))
            (Nat.lt_of_lt_of_le hlt (Nat.le_of_lt_succ hn'))

/-- A name is found in corresponding scopes, with corresponding values. -/
theorem resolve (h : s.Mirrors r s') (hs : s.Layered) (e : ScopeRef) (name : Text) :
    s'.resolve (r.scope e) name =
      (s.resolve e name).map fun found => (r.scope found.1, r.value found.2) :=
  h.resolveFrom hs name (Nat.lt_succ_self e) (Nat.lt_succ_of_le (r.le_scope e))

/-- A name has corresponding values in corresponding scopes. -/
theorem lookup (h : s.Mirrors r s') (hs : s.Layered) (e : ScopeRef) (name : Text) :
    s'.lookup (r.scope e) name = (s.lookup e name).map r.value := by
  rw [Store.lookup, h.resolve hs, Store.lookup, Option.map_map, Option.map_map]
  rfl

/-- A name is bound in corresponding scopes. -/
theorem owner (h : s.Mirrors r s') (hs : s.Layered) (e : ScopeRef) (name : Text) :
    s'.owner (r.scope e) name = (s.owner e name).map r.scope := by
  rw [Store.owner, h.resolve hs, Store.owner, Option.map_map, Option.map_map]
  rfl

/-- New arrays correspond. -/
theorem value_newArray (h : s.Mirrors r s') (items items' : Array Value) :
    (s'.newArray items').1 = r.value (s.newArray items).1 :=
  congrArg Value.array h.arrays.size

/-- Stores with new arrays of corresponding elements mirror each other. -/
theorem newArray (h : s.Mirrors r s') (items : Array Value) :
    (s.newArray items).2.Mirrors r (s'.newArray (items.map r.value)).2 :=
  { h with arrays := h.arrays.push (fun _ _ => Nat.add_right_cancel) (Nat.add_right_comm ..) rfl }

/-- Corresponding arrays have corresponding elements. -/
theorem items (h : s.Mirrors r s') (a : ArrayRef) :
    s'.items (a + r.arrays) = (s.items a).map r.value := by
  unfold Store.items
  rcases h.arrays.found a with ⟨hnone, hnone'⟩ | ⟨xs, ys, hxs, hys, heq⟩
  · rw [hnone, hnone', Option.getD_none, Array.map_empty]
  · rw [hxs, hys]
    exact heq

/-- Corresponding elements may be added to corresponding arrays. -/
theorem pushItems (h : s.Mirrors r s') (a : ArrayRef) (vs : List Value) :
    (s.pushItems a vs).Mirrors r (s'.pushItems (a + r.arrays) (vs.map r.value)) := by
  have hpush : ∀ xs ys : Array Value, ys = xs.map r.value →
      (vs.map r.value).foldl Array.push ys = (vs.foldl Array.push xs).map r.value := by
    rintro xs _ rfl
    induction vs generalizing xs with
    | nil => rfl
    | cons v vs ih => rw [List.map_cons, List.foldl_cons, List.foldl_cons, ← Array.map_push, ih]
  exact { h with
    arrays := h.arrays.modify (fun _ _ => Nat.add_right_cancel) a
      (f := fun xs => vs.foldl Array.push xs)
      (g := fun ys => (vs.map r.value).foldl Array.push ys) hpush }

/-- The last elements of corresponding arrays may be removed. -/
theorem popItem (h : s.Mirrors r s') (a : ArrayRef) :
    (s.popItem a).Mirrors r (s'.popItem (a + r.arrays)) := by
  refine { h with
    arrays := h.arrays.modify (fun _ _ => Nat.add_right_cancel) a fun xs ys hxy => ?_ }
  rw [hxy, Array.map_pop]

/-- New closures correspond. -/
theorem value_newClosure (h : s.Mirrors r s') (params : List Text) (body : Expr) (e : ScopeRef) :
    (s'.newClosure params body (r.scope e)).1 = r.value (s.newClosure params body e).1 :=
  congrArg Value.closure h.closures.size

/-- Stores with new closures of corresponding scopes mirror each other. -/
theorem newClosure (h : s.Mirrors r s') (params : List Text) (body : Expr) (e : ScopeRef) :
    (s.newClosure params body e).2.Mirrors r (s'.newClosure params body (r.scope e)).2 :=
  { h with
    closures := h.closures.push (fun _ _ => Nat.add_right_cancel) (Nat.add_right_comm ..) rfl }

/-- Corresponding functions may be given the same name. -/
theorem nameClosure (h : s.Mirrors r s') (v : Value) (name : Text) :
    (s.nameClosure v name).Mirrors r (s'.nameClosure (r.value v) name) := by
  cases v with
  | closure c =>
    have hname : ∀ c c' : Closure, c' = r.closure c →
        (if c'.name.isEmpty then { c' with name := name } else c') =
          r.closure (if c.name.isEmpty then { c with name := name } else c) := by
      rintro c _ rfl
      by_cases hempty : c.name.isEmpty = true
      · simp [Renaming.closure, hempty]
      · simp [Renaming.closure, hempty]
    exact { h with
      closures := h.closures.modify (fun _ _ => Nat.add_right_cancel) c
        (f := fun c => if c.name.isEmpty then { c with name := name } else c)
        (g := fun c => if c.name.isEmpty then { c with name := name } else c) hname }
  | _ => exact h

/-- New classes correspond. -/
theorem value_newClass (h : s.Mirrors r s') (info info' : ClassInfo) :
    (s'.newClass info').1 = r.value (s.newClass info).1 :=
  congrArg Value.classRef h.classes.size

/-- Stores with new classes that correspond mirror each other. -/
theorem newClass (h : s.Mirrors r s') {info info' : ClassInfo} (hinfo : info.Mirrors r info') :
    (s.newClass info).2.Mirrors r (s'.newClass info').2 :=
  { h with
    classes := h.classes.push (fun _ _ => Nat.add_right_cancel) (Nat.add_right_comm ..) hinfo }

/-- Corresponding classes have the same name. -/
theorem className (h : s.Mirrors r s') (c : ClassRef) :
    s'.className (c + r.classes) = s.className c := by
  unfold Store.className
  rcases h.classes.found c with ⟨hnone, hnone'⟩ | ⟨info, info', hinfo, hinfo', hmirrors⟩
  · rw [hnone, hnone']
  · rw [hinfo, hinfo']
    exact hmirrors.name

/-- New instances correspond. -/
theorem value_bear (h : s.Mirrors r s') (c : ClassRef) :
    (s'.bear (c + r.classes)).1 = r.value (s.bear c).1 :=
  congrArg Value.object h.instances.size

/-- Stores with new instances of corresponding classes mirror each other, as their labels are the
same. -/
theorem bear (h : s.Mirrors r s') (c : ClassRef) :
    (s.bear c).2.Mirrors r (s'.bear (c + r.classes)).2 :=
  { h with
    instances := h.instances.push (fun _ _ => Nat.add_right_cancel) (Nat.add_right_comm ..)
      ⟨rfl, h.labels.label, .empty⟩
    labels := h.labels.bear }

/-- Corresponding instances have corresponding fields. -/
theorem fields (h : s.Mirrors r s') (i : InstanceRef) :
    (s.fields i).Mirrors r (s'.fields (i + r.instances)) := by
  unfold Store.fields
  rcases h.instances.found i with ⟨hnone, hnone'⟩ | ⟨x, y, hx, hy, hmirrors⟩
  · rw [hnone, hnone']
    exact .empty
  · rw [hx, hy]
    exact hmirrors.fields

/-- The same field of corresponding instances may be set to corresponding values. -/
theorem putField (h : s.Mirrors r s') (i : InstanceRef) (name : Text) (v : Value) :
    (s.putField i name v).Mirrors r (s'.putField (i + r.instances) name (r.value v)) :=
  { h with
    instances := h.instances.modify (fun _ _ => Nat.add_right_cancel) i
      (f := fun i => { i with fields := i.fields.put name v })
      (g := fun i => { i with fields := i.fields.put name (r.value v) })
      fun _ _ hi => ⟨hi.parent, hi.label, hi.fields.put name v⟩ }

/-- An instance that is there is mirrored by one that is there. -/
theorem exists_instance (h : s.Mirrors r s') {i : InstanceRef} (hi : i < s.instances.size) :
    ∃ found found', s.instances[i]? = some found ∧ s'.instances[i + r.instances]? = some found' ∧
      found.Mirrors r found' := by
  rcases h.instances.found i with ⟨hnone, -⟩ | hfound
  · exact absurd hi (Nat.not_lt.mpr (Array.getElem?_eq_none_iff.mp hnone))
  · exact hfound

/-- Corresponding instances are of corresponding classes. -/
theorem parentOf (h : s.Mirrors r s') {i : InstanceRef} (hi : i < s.instances.size) :
    s'.parentOf (i + r.instances) = s.parentOf i + r.classes := by
  obtain ⟨found, found', hfound, hfound', hmirrors⟩ := h.exists_instance hi
  rw [Store.parentOf, hfound', Store.parentOf, hfound]
  exact hmirrors.parent

/-- Corresponding instances have corresponding methods. -/
theorem method? (h : s.Mirrors r s') {i : InstanceRef} (hi : i < s.instances.size) (name : Text) :
    s'.method? (i + r.instances) name = (s.method? i name).map r.value := by
  rw [Store.method?, h.parentOf hi, Store.method?]
  rcases h.classes.found (s.parentOf i) with ⟨hnone, hnone'⟩ |
      ⟨info, info', hinfo, hinfo', hmirrors⟩
  · rw [hnone, hnone']
    rfl
  · rw [hinfo, hinfo']
    exact hmirrors.methods.table name

/-- The same event may be recorded in both stores. -/
theorem record (h : s.Mirrors r s') (phase : Phase) (name : Text) :
    (s.record phase name).Mirrors r (s'.record phase name) := by
  have hevents := h.events
  unfold Store.record
  cases hs : s.events with
  | none =>
    cases hs' : s'.events with
    | none => exact h
    | some events => simp [hs, hs'] at hevents
  | some events =>
    cases hs' : s'.events with
    | none => simp [hs, hs'] at hevents
    | some events' => exact { h with events := rfl }

/-- Corresponding closures have the same text. -/
theorem closureText (h : s.Mirrors r s') (c : ClosureRef) :
    s'.closureText (c + r.closures) = s.closureText c := by
  unfold Store.closureText
  rcases h.closures.found c with ⟨hnone, hnone'⟩ | ⟨c, _, hc, hc', rfl⟩
  · rw [hnone, hnone']
  · rw [hc, hc']
    rfl

/-- Corresponding instances are headed by the same text. -/
theorem instanceHead (h : s.Mirrors r s') {i : InstanceRef} (hi : i < s.instances.size) :
    s'.instanceHead (i + r.instances) = s.instanceHead i := by
  obtain ⟨found, found', hfound, hfound', hmirrors⟩ := h.exists_instance hi
  rw [Store.instanceHead, h.parentOf hi, h.className, hfound', Store.instanceHead, hfound,
    Option.map_some, Option.map_some, hmirrors.label]

/-- Corresponding values are written plainly in the same way. -/
theorem plainText (h : s.Mirrors r s') {v : Value} (hv : v.Within s.extent) :
    s'.plainText (r.value v) = s.plainText v := by
  cases v with
  | closure c => exact h.closureText c
  | classRef c =>
    simp only [Renaming.value, Store.plainText]
    rw [h.className c]
  | object i => exact h.instanceHead hv
  | _ => rfl

/-- Corresponding elements are written in corresponding pieces. -/
theorem itemPieces_map (vs : List Value) :
    itemPieces (vs.map r.value) = (itemPieces vs).map r.piece := by
  have hfold : ∀ vs : List Value,
      (vs.map r.value).foldr (fun v more => Piece.text ", " :: .value v :: more) [] =
        (vs.foldr (fun v more => Piece.text ", " :: .value v :: more) []).map r.piece := by
    intro vs
    induction vs with
    | nil => rfl
    | cons v vs ih =>
      rw [List.map_cons, List.foldr_cons, ih]
      rfl
  cases vs with
  | nil => rfl
  | cons v vs =>
    rw [List.map_cons, itemPieces, hfold]
    rfl

/-- Corresponding fields are written in corresponding pieces. -/
theorem fieldPieces_map (entries : List (Text × Value)) :
    fieldPieces (entries.map fun entry => (entry.1, r.value entry.2)) =
      (fieldPieces entries).map r.piece := by
  have hfold : ∀ entries : List (Text × Value),
      (entries.map fun entry => (entry.1, r.value entry.2)).foldr
          (fun entry more => Piece.text (", " ++ entry.1 ++ ": ") :: .value entry.2 :: more) [] =
        (entries.foldr (fun entry more =>
          Piece.text (", " ++ entry.1 ++ ": ") :: .value entry.2 :: more) []).map r.piece := by
    intro entries
    induction entries with
    | nil => rfl
    | cons entry entries ih =>
      rw [List.map_cons, List.foldr_cons, ih]
      rfl
  cases entries with
  | nil => rfl
  | cons entry entries =>
    rw [List.map_cons, fieldPieces, hfold]
    rfl

/-- Corresponding holders are written in corresponding pieces. -/
theorem pieces (h : s.Mirrors r s') {v : Value} (hv : v.Within s.extent) {holder : Holder}
    (hholder : holder? v = some holder) :
    s'.pieces (r.holder holder) = (s.pieces holder).map r.piece := by
  cases v with
  | array a =>
    obtain rfl := Option.some.inj hholder
    simp only [Renaming.holder, Store.pieces, h.items, Array.toList_map, itemPieces_map,
      List.map_cons, List.map_append]
    rfl
  | object i =>
    obtain rfl := Option.some.inj hholder
    simp only [Renaming.holder, Store.pieces, h.instanceHead hv, (h.fields i).toList,
      fieldPieces_map, List.map_cons, List.map_append]
    rfl
  | _ => cases hholder

/-- What a holder is made of is good. -/
theorem within_piece (hs : s.WellFormed) {holder : Holder} {v : Value}
    (hv : Piece.value v ∈ s.pieces holder) : v.Within s.extent := by
  cases holder with
  | array a =>
    have hmem : v ∈ (s.items a).toList := mem_of_mem_itemPieces (by simpa [Store.pieces] using hv)
    exact hs.items a v (Array.mem_def.mpr hmem)
  | object i =>
    obtain ⟨name, hmem⟩ : ∃ name, (name, v) ∈ (s.fields i).toList :=
      mem_of_mem_fieldPieces (by simpa [Store.pieces] using hv)
    exact hs.fields i name v (Std.TreeMap.mem_toList_iff_getElem?_eq_some.mp hmem)

/-- The text of a value along a path is that of the value that corresponds to it. -/
theorem pathText (h : s.Mirrors r s') (hs : s.WellFormed) (n : Nat) (path : List Holder)
    {v : Value} (hv : v.Within s.extent) :
    s'.pathText n (path.map r.holder) (r.value v) = s.pathText n path v := by
  induction n generalizing path v with
  | zero => exact h.plainText hv
  | succ n ih =>
    have hholder := r.holder?_value v
    cases hfound : holder? v with
    | none =>
      rw [hfound] at hholder
      rw [pathText_plain s' hholder, pathText_plain s hfound, h.plainText hv]
    | some holder =>
      rw [hfound] at hholder
      by_cases hmem : holder ∈ path
      · rw [pathText_inside s' hholder (List.mem_map_of_mem hmem), pathText_inside s hfound hmem,
          h.plainText hv]
      · have hmem' : r.holder holder ∉ path.map r.holder := by
          rwa [List.mem_map_of_injective r.holder_injective]
        rw [pathText_open s' hholder hmem', pathText_open s hfound hmem, h.pieces hv hfound,
          List.map_map]
        refine congrArg Text.concat (List.map_congr_left fun p hp => ?_)
        cases p with
        | text t => rfl
        | value w => exact ih (holder :: path) (within_piece hs hp)

/-- The text of a value is that of the value that corresponds to it. -/
theorem sourceText (h : s.Mirrors r s') (hs : s.WellFormed) {v : Value} (hv : v.Within s.extent) :
    s'.sourceText (r.value v) = s.sourceText v := by
  have hle : s.arrays.size + s.instances.size < s'.arrays.size + s'.instances.size + 1 := by
    rw [h.arrays.size, h.instances.size]
    omega
  rw [s'.sourceText_eq_pathText _ (Nat.lt_succ_self _), s.sourceText_eq_pathText v hle]
  exact h.pathText hs _ [] hv

/-- Corresponding values have the same text. -/
theorem display (h : s.Mirrors r s') (hs : s.WellFormed) {v : Value} (hv : v.Within s.extent) :
    s'.display (r.value v) = s.display v := by
  cases v with
  | string t => rfl
  | _ => exact h.sourceText hs hv

end Store.Mirrors

end TinyScript
