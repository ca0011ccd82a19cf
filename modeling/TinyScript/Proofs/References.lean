import TinyScript.Proofs.Answers

/-!
# References stay good

The extent of a store is how many arrays, closures, classes and instances it has. A store is well
formed if every value in it lies within its extent, and if what a class refers to was there before
the class. Operations on the store keep this, and an extent never shrinks.
-/

namespace TinyScript

/-- How many arrays, closures, classes and instances there are. -/
structure Extent where
  arrays : Nat
  closures : Nat
  classes : Nat
  instances : Nat

namespace Extent

instance : LE Extent where
  le x y := x.arrays ≤ y.arrays ∧ x.closures ≤ y.closures ∧ x.classes ≤ y.classes ∧
    x.instances ≤ y.instances

/-- An extent is as large as itself. -/
theorem le_refl (x : Extent) : x ≤ x := ⟨Nat.le_refl _, Nat.le_refl _, Nat.le_refl _, Nat.le_refl _⟩

end Extent

/-- The value is none that only a host can make, and its reference is in range. -/
def Value.Within (x : Extent) : Value → Prop
  | .array r => r < x.arrays
  | .closure r => r < x.closures
  | .classRef r => r < x.classes
  | .object r => r < x.instances
  | .absent => False
  | _ => True

/-- All values bound lie within an extent. -/
def Bindings.Within (x : Extent) (b : Bindings) : Prop :=
  ∀ name v, b.get? name = some v → v.Within x

/-- All methods lie within an extent. -/
def Methods.Within (x : Extent) (m : Methods) : Prop := m.table.Within x

/-- The maker and the methods of a class lie within an extent. -/
def ClassInfo.Within (x : Extent) (info : ClassInfo) : Prop :=
  info.maker.Within x ∧ info.methods.Within x

/-- All values in a store lie within an extent, and those of a class refer only to older classes. -/
structure Store.Within (x : Extent) (s : Store) : Prop where
  scopes : ∀ scope ∈ s.scopes, scope.bindings.Within x
  arrays : ∀ items ∈ s.arrays, ∀ v ∈ items, v.Within x
  instances : ∀ i ∈ s.instances, i.fields.Within x
  classes : ∀ (r : ClassRef) (info : ClassInfo), s.classes[r]? = some info →
    info.Within { x with classes := r }

/-- The extent of a store. -/
def Store.extent (s : Store) : Extent where
  arrays := s.arrays.size
  closures := s.closures.size
  classes := s.classes.size
  instances := s.instances.size

/-- All values in a store are good in that store. -/
def Store.WellFormed (s : Store) : Prop := s.Within s.extent

section Values

variable {x y : Extent}

/-- A value within an extent is within every larger one. -/
theorem Value.Within.mono {v : Value} (h : v.Within x) (hle : x ≤ y) : v.Within y := by
  obtain ⟨harrays, hclosures, hclasses, hinstances⟩ := hle
  cases v with
  | array r => exact Nat.lt_of_lt_of_le h harrays
  | closure r => exact Nat.lt_of_lt_of_le h hclosures
  | classRef r => exact Nat.lt_of_lt_of_le h hclasses
  | object r => exact Nat.lt_of_lt_of_le h hinstances
  | absent => exact h
  | _ => exact trivial

/-- Atoms are within every extent. -/
theorem Value.IsAtom.within {v : Value} (h : v.IsAtom) : v.Within x := by
  cases v with
  | number _ | string _ | boolean _ => exact trivial
  | _ => exact h.elim

/-- Bindings within an extent are within every larger one. -/
theorem Bindings.Within.mono {b : Bindings} (h : b.Within x) (hle : x ≤ y) : b.Within y :=
  fun name v hv => (h name v hv).mono hle

/-- No bindings are within every extent. -/
theorem Bindings.within_empty : Bindings.empty.Within x := by
  intro name v hv
  rw [get?_empty] at hv
  exact nomatch hv

/-- A value within an extent may be bound. -/
theorem Bindings.Within.put {b : Bindings} (h : b.Within x) {v : Value} (hv : v.Within x)
    (name : Text) : (b.put name v).Within x := by
  intro other w hw
  rw [get?_put] at hw
  split_ifs at hw
  · obtain rfl := Option.some.inj hw
    exact hv
  · exact h other w hw

/-- Bindings of values within an extent are within it. -/
theorem Bindings.within_ofList {entries : List (Text × Value)}
    (h : ∀ entry ∈ entries, entry.2.Within x) : (Bindings.ofList entries).Within x := by
  have hfold : ∀ (entries : List (Text × Value)) (b : Bindings),
      (∀ entry ∈ entries, entry.2.Within x) → b.Within x →
        (entries.foldl (fun b entry => b.put entry.1 entry.2) b).Within x := by
    intro entries
    induction entries with
    | nil => exact fun b _ hb => hb
    | cons entry entries ih =>
      intro b hentries hb
      simp only [List.mem_cons, forall_eq_or_imp] at hentries
      exact ih _ hentries.2 (hb.put hentries.1 entry.1)
  exact hfold entries .empty h within_empty

/-- Methods within an extent are within every larger one. -/
theorem Methods.Within.mono {m : Methods} (h : m.Within x) (hle : x ≤ y) : m.Within y :=
  Bindings.Within.mono h hle

/-- No methods are within every extent. -/
theorem Methods.within_empty : Methods.empty.Within x := Bindings.within_empty

/-- A method within an extent may be added. -/
theorem Methods.Within.put {m : Methods} (h : m.Within x) {v : Value} (hv : v.Within x)
    (name : Text) : (m.put name v).Within x := Bindings.Within.put h hv name

/-- A class within an extent is within every larger one. -/
theorem ClassInfo.Within.mono {info : ClassInfo} (h : info.Within x) (hle : x ≤ y) :
    info.Within y := ⟨h.1.mono hle, h.2.mono hle⟩

/-- A store within an extent is within every larger one. -/
theorem Store.Within.mono {s : Store} (h : s.Within x) (hle : x ≤ y) : s.Within y where
  scopes scope hscope := (h.scopes scope hscope).mono hle
  arrays items hitems v hv := (h.arrays items hitems v hv).mono hle
  instances i hi := (h.instances i hi).mono hle
  classes r info hinfo := (h.classes r info hinfo).mono ⟨hle.1, hle.2.1, Nat.le_refl r, hle.2.2.2⟩

end Values

/-- A property of all elements of an array is kept by a change of one of them that keeps it. -/
theorem forall_mem_modify {α : Type} {P : α → Prop} {xs : Array α} (h : ∀ x ∈ xs, P x) (i : Nat)
    (f : α → α) (hf : ∀ x, P x → P (f x)) : ∀ x ∈ xs.modify i f, P x := by
  intro x hx
  obtain ⟨j, hj⟩ := Array.mem_iff_getElem?.mp hx
  rw [Array.getElem?_modify] at hj
  split_ifs at hj
  · obtain ⟨y, hy, rfl⟩ := Option.map_eq_some_iff.mp hj
    exact hf y (h y (Array.mem_of_getElem? hy))
  · exact h x (Array.mem_of_getElem? hj)

/-- A property of all elements of an array is kept when an element with it is added. -/
theorem forall_mem_push {α : Type} {P : α → Prop} {xs : Array α} {x : α} (h : ∀ y ∈ xs, P y)
    (hx : P x) : ∀ y ∈ xs.push x, P y := by
  intro y hy
  rcases Array.mem_push.mp hy with hy | rfl
  · exact h y hy
  · exact hx

/-- Elements pushed one by one are added to those that were there. -/
theorem mem_foldl_push {α : Type} {x : α} {vs : List α} {xs : Array α} :
    x ∈ vs.foldl Array.push xs ↔ x ∈ xs ∨ x ∈ vs := by
  induction vs generalizing xs with
  | nil => simp
  | cons v vs ih => rw [List.foldl_cons, ih, Array.mem_push, List.mem_cons, or_assoc]

namespace Store

variable {s : Store}

/-- Binding a name leaves the extent as it is. -/
@[simp] theorem extent_define (e : ScopeRef) (name : Text) (v : Value) :
    (s.define e name v).extent = s.extent := rfl

/-- Adding elements to an array leaves the extent as it is. -/
@[simp] theorem extent_pushItems (r : ArrayRef) (vs : List Value) :
    (s.pushItems r vs).extent = s.extent := by simp [extent, pushItems]

/-- Removing the last element of an array leaves the extent as it is. -/
@[simp] theorem extent_popItem (r : ArrayRef) : (s.popItem r).extent = s.extent := by
  simp [extent, popItem]

/-- Setting a field leaves the extent as it is. -/
@[simp] theorem extent_putField (r : InstanceRef) (name : Text) (v : Value) :
    (s.putField r name v).extent = s.extent := by simp [extent, putField]

/-- Naming a function leaves the extent as it is. -/
@[simp] theorem extent_nameClosure (v : Value) (name : Text) :
    (s.nameClosure v name).extent = s.extent := by
  cases v with
  | closure r => simp [extent, nameClosure]
  | _ => rfl

/-- Recording an event leaves the extent as it is. -/
@[simp] theorem extent_record (phase : Phase) (name : Text) :
    (s.record phase name).extent = s.extent := by
  unfold record
  split <;> rfl

/-- A new array enlarges the extent. -/
theorem extent_le_newArray (items : Array Value) : s.extent ≤ (s.newArray items).2.extent := by
  refine ⟨?_, Nat.le_refl _, Nat.le_refl _, Nat.le_refl _⟩
  simp [extent, newArray]

/-- A new closure enlarges the extent. -/
theorem extent_le_newClosure (params : List Text) (body : Expr) (scope : ScopeRef) :
    s.extent ≤ (s.newClosure params body scope).2.extent := by
  refine ⟨Nat.le_refl _, ?_, Nat.le_refl _, Nat.le_refl _⟩
  simp [extent, newClosure]

/-- A new class enlarges the extent. -/
theorem extent_le_newClass (info : ClassInfo) : s.extent ≤ (s.newClass info).2.extent := by
  refine ⟨Nat.le_refl _, Nat.le_refl _, ?_, Nat.le_refl _⟩
  simp [extent, newClass]

/-- A new instance enlarges the extent. -/
theorem extent_le_bear (parent : ClassRef) : s.extent ≤ (s.bear parent).2.extent := by
  refine ⟨Nat.le_refl _, Nat.le_refl _, Nat.le_refl _, ?_⟩
  simp [extent, bear, newInstance]

/-- A new array is within the new extent. -/
theorem within_newArray (items : Array Value) :
    (s.newArray items).1.Within (s.newArray items).2.extent := by
  simp [extent, newArray, Value.Within]

/-- A new closure is within the new extent. -/
theorem within_newClosure (params : List Text) (body : Expr) (scope : ScopeRef) :
    (s.newClosure params body scope).1.Within (s.newClosure params body scope).2.extent := by
  simp [extent, newClosure, Value.Within]

/-- A new class is within the new extent. -/
theorem within_newClass (info : ClassInfo) :
    (s.newClass info).1.Within (s.newClass info).2.extent := by
  simp [extent, newClass, Value.Within]

/-- A new instance is within the new extent. -/
theorem within_bear (parent : ClassRef) : (s.bear parent).1.Within (s.bear parent).2.extent := by
  simp [extent, bear, newInstance, Value.Within]

/-- A new scope with good bindings keeps a store well formed. -/
theorem WellFormed.newScope (h : s.WellFormed) {bindings : Bindings}
    (hbindings : bindings.Within s.extent) (outer : Option ScopeRef) :
    (s.newScope outer bindings).2.WellFormed where
  scopes := forall_mem_push h.scopes hbindings
  arrays := h.arrays
  instances := h.instances
  classes := h.classes

/-- Binding a name to a good value keeps a store well formed. -/
theorem WellFormed.define (h : s.WellFormed) {v : Value} (hv : v.Within s.extent) (e : ScopeRef)
    (name : Text) : (s.define e name v).WellFormed where
  scopes := forall_mem_modify h.scopes e
    (fun scope => { scope with bindings := scope.bindings.put name v })
    fun _ hscope => hscope.put hv name
  arrays := h.arrays
  instances := h.instances
  classes := h.classes

/-- A new array of good values keeps a store well formed. -/
theorem WellFormed.newArray (h : s.WellFormed) {items : Array Value}
    (hitems : ∀ v ∈ items, v.Within s.extent) : (s.newArray items).2.WellFormed := by
  have hle := s.extent_le_newArray items
  have h' : s.Within (s.newArray items).2.extent := Within.mono h hle
  exact ⟨h'.scopes, forall_mem_push h'.arrays fun v hv => (hitems v hv).mono hle, h'.instances,
    h'.classes⟩

/-- A new closure keeps a store well formed. -/
theorem WellFormed.newClosure (h : s.WellFormed) (params : List Text) (body : Expr)
    (scope : ScopeRef) : (s.newClosure params body scope).2.WellFormed := by
  have h' := Within.mono h (s.extent_le_newClosure params body scope)
  exact ⟨h'.scopes, h'.arrays, h'.instances, h'.classes⟩

/-- A new instance keeps a store well formed. -/
theorem WellFormed.bear (h : s.WellFormed) (parent : ClassRef) :
    (s.bear parent).2.WellFormed := by
  have h' := Within.mono h (s.extent_le_bear parent)
  exact ⟨h'.scopes, h'.arrays, forall_mem_push h'.instances Bindings.within_empty, h'.classes⟩

/-- A new class is younger than all that its maker and its methods refer to. -/
theorem WellFormed.newClass (h : s.WellFormed) {info : ClassInfo} (hinfo : info.Within s.extent) :
    (s.newClass info).2.WellFormed := by
  have h' := Within.mono h (s.extent_le_newClass info)
  refine ⟨h'.scopes, h'.arrays, h'.instances, fun r other hother => ?_⟩
  rw [Store.newClass, Array.getElem?_push] at hother
  split_ifs at hother with hr
  · obtain rfl := Option.some.inj hother
    subst hr
    exact hinfo
  · exact h'.classes r other hother

/-- Adding good elements to an array keeps a store well formed. -/
theorem WellFormed.pushItems (h : s.WellFormed) {vs : List Value}
    (hvs : ∀ v ∈ vs, v.Within s.extent) (r : ArrayRef) : (s.pushItems r vs).WellFormed := by
  unfold WellFormed
  rw [extent_pushItems]
  refine ⟨h.scopes, forall_mem_modify h.arrays r (vs.foldl Array.push) ?_, h.instances, h.classes⟩
  intro items hitems v hv
  rcases mem_foldl_push.mp hv with hv | hv
  · exact hitems v hv
  · exact hvs v hv

/-- Removing the last element of an array keeps a store well formed. -/
theorem WellFormed.popItem (h : s.WellFormed) (r : ArrayRef) : (s.popItem r).WellFormed := by
  unfold WellFormed
  rw [extent_popItem]
  refine ⟨h.scopes, forall_mem_modify h.arrays r Array.pop ?_, h.instances, h.classes⟩
  intro items hitems v hv
  rw [Array.mem_def, Array.toList_pop] at hv
  exact hitems v (Array.mem_def.mpr (List.dropLast_subset _ hv))

/-- Setting a field to a good value keeps a store well formed. -/
theorem WellFormed.putField (h : s.WellFormed) {v : Value} (hv : v.Within s.extent)
    (r : InstanceRef) (name : Text) : (s.putField r name v).WellFormed := by
  unfold WellFormed
  rw [extent_putField]
  exact ⟨h.scopes, h.arrays, forall_mem_modify h.instances r
    (fun i => { i with fields := i.fields.put name v }) fun _ hi => hi.put hv name, h.classes⟩

/-- Naming a function keeps a store well formed. -/
theorem WellFormed.nameClosure (h : s.WellFormed) (v : Value) (name : Text) :
    (s.nameClosure v name).WellFormed := by
  unfold WellFormed
  rw [extent_nameClosure]
  cases v with
  | closure r => exact ⟨h.scopes, h.arrays, h.instances, h.classes⟩
  | _ => exact h

/-- Recording an event keeps a store well formed. -/
theorem WellFormed.record (h : s.WellFormed) (phase : Phase) (name : Text) :
    (s.record phase name).WellFormed := by
  unfold Store.record
  split
  · exact ⟨h.scopes, h.arrays, h.instances, h.classes⟩
  · exact h

/-- The elements of an array are good. -/
theorem WellFormed.items (h : s.WellFormed) (r : ArrayRef) :
    ∀ v ∈ s.items r, v.Within s.extent := by
  intro v hv
  unfold Store.items at hv
  cases hr : s.arrays[r]? with
  | none =>
    rw [hr] at hv
    simp at hv
  | some items =>
    rw [hr] at hv
    exact h.arrays items (Array.mem_of_getElem? hr) v hv

/-- The fields of an instance are good. -/
theorem WellFormed.fields (h : s.WellFormed) (r : InstanceRef) : (s.fields r).Within s.extent := by
  unfold Store.fields
  cases hr : s.instances[r]? with
  | none => exact Bindings.within_empty
  | some i => exact h.instances i (Array.mem_of_getElem? hr)

/-- A method refers only to classes that are older than the class of its instance. -/
theorem WellFormed.method (h : s.WellFormed) {r : InstanceRef} {name : Text} {f : Value}
    (hf : s.method? r name = some f) : f.Within { s.extent with classes := s.parentOf r } := by
  obtain ⟨info, hinfo, hf⟩ := Option.bind_eq_some_iff.mp hf
  exact (h.classes _ info hinfo).2 name f hf

/-- What a name stands for is good. -/
theorem WellFormed.lookup (h : s.WellFormed) {e : ScopeRef} {name : Text} {v : Value}
    (hv : s.lookup e name = some v) : v.Within s.extent := by
  have hresolve : ∀ (n : Nat) (e : ScopeRef) (found : ScopeRef × Value),
      resolveFrom s.scopes name n e = some found → found.2.Within s.extent := by
    intro n
    induction n with
    | zero => exact fun e found hfound => nomatch hfound
    | succ n ih =>
      intro e found hfound
      rw [resolveFrom] at hfound
      split at hfound
      · exact nomatch hfound
      · rename_i scope hscope
        split at hfound
        · rename_i w hw
          obtain rfl := Option.some.inj hfound
          exact h.scopes scope (Array.mem_of_getElem? hscope) name w hw
        · split at hfound
          · exact nomatch hfound
          · exact ih _ found hfound
  obtain ⟨found, hfound, rfl⟩ := Option.map_eq_some_iff.mp hv
  exact hresolve _ _ found hfound

/-- What a builtin can get hold of is good if its arguments are. -/
theorem WellFormed.atHand (h : s.WellFormed) {args : List Value}
    (hargs : ∀ v ∈ args, v.Within s.extent) {v : Value} (hv : s.AtHand args v) :
    v.Within s.extent := by
  rcases hv with hatom | hmem | ⟨r, hmem⟩ | ⟨r, name, hget⟩
  · exact hatom.within
  · exact hargs v hmem
  · exact h.items r v hmem
  · exact h.fields r name v hget

end Store

end TinyScript
