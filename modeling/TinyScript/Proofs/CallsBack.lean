import TinyScript.Proofs.Replies
import TinyScript.Proofs.Subruns

/-!
# The calls that a builtin makes

A builtin that is handed a function is a sequence of calls of it. Each call is made when the one
before has come to its outcome, and a fault in one of them is the outcome of the builtin. What a
call of a builtin comes to is accounted for by the calls that it makes, and by nothing else.
-/

namespace TinyScript

variable {limits : Limits} {f : Value} {args : List Value} {s s' : Store} {o : Outcome}

/-- A call that a builtin has made, and what came of it. -/
structure Call where
  function : Value
  args : List Value
  outcome : Outcome

/-- The outcome that is a value in a store. -/
def Outcome.given (p : Value × Store) : Outcome := ⟨.ok p.1, p.2⟩

/-- A builtin that replies so makes these calls and comes to this outcome. -/
inductive Reply.Makes (limits : Limits) : Reply → List Call → Outcome → Prop where
  | value (v : Value) (s : Store) : Makes limits (.value v s) [] ⟨.ok v, s⟩
  | failure (cause : Cause) (s : Store) :
      Makes limits (.failure cause s) [] ⟨.error (.unplaced cause), s⟩
  | answered {f : Value} {args : List Value} {pending : Pending} {s s' : Store} {v : Value}
      {calls : List Call} {o : Outcome} (hcall : Returns limits f args s ⟨.ok v, s'⟩)
      (hrest : Makes limits (pending.resume s' v) calls o) :
      Makes limits (.await f args pending s) (⟨f, args, ⟨.ok v, s'⟩⟩ :: calls) o
  | failed {f : Value} {args : List Value} (pending : Pending) {s s' : Store} {fault : Fault}
      (hcall : Returns limits f args s ⟨.error fault, s'⟩) :
      Makes limits (.await f args pending s) [⟨f, args, ⟨.error fault, s'⟩⟩] ⟨.error fault, s'⟩
  | become {f : Value} {args : List Value} {s : Store} {o : Outcome}
      (hcall : Returns limits f args s o) : Makes limits (.become f args s) [⟨f, args, o⟩] o

open Machine in

/-- A builtin that makes some calls comes to the outcome that they account for. -/
theorem Reply.Makes.comesTo {r : Reply} {calls : List Call} (h : r.Makes limits calls o) :
    ComesTo limits (reply r []) o := by
  induction h with
  | value v s => exact (comesTo_iff_of_end rfl).mpr rfl
  | failure cause s => exact (comesTo_iff_of_end rfl).mpr rfl
  | answered hcall _ ih =>
    refine (hcall.reaches _).comesTo_iff.mpr ?_
    exact (reaches_resume ..).comesTo_iff.mpr ih
  | failed pending hcall =>
    refine (hcall.reaches _).comesTo_iff.mpr ?_
    exact (comesTo_iff_of_step rfl).mpr ((comesTo_iff_of_end rfl).mpr rfl)
  | become hcall => exact hcall

/-- A builtin that replies with a value makes no calls. -/
theorem Reply.makes_value_iff {v : Value} {calls : List Call} :
    (Reply.value v s).Makes limits calls o ↔ calls = [] ∧ o = ⟨.ok v, s⟩ := by
  constructor
  · intro h
    cases h
    exact ⟨rfl, rfl⟩
  · rintro ⟨rfl, rfl⟩
    exact .value v s

/-- A builtin that replies with a failure makes no calls. -/
theorem Reply.makes_failure_iff {cause : Cause} {calls : List Call} :
    (Reply.failure cause s).Makes limits calls o ↔
      calls = [] ∧ o = ⟨.error (.unplaced cause), s⟩ := by
  constructor
  · intro h
    cases h
    exact ⟨rfl, rfl⟩
  · rintro ⟨rfl, rfl⟩
    exact .failure cause s

namespace Machine

/-- The outcome of a run that begins with a reply is accounted for by some calls. The induction is
on the fuel: a call never gives fuel back, and handing its result to the builtin that waits is a
step. -/
theorem exists_makes_of_run {fuel : Nat} {r : Reply} (h : run limits fuel (reply r []) = some o) :
    ∃ calls, r.Makes limits calls o := by
  induction fuel using Nat.strongRecOn generalizing r with
  | ind fuel ih =>
    cases r with
    | value v s =>
      obtain rfl := (comesTo_iff_of_end rfl).mp ⟨fuel, h⟩
      exact ⟨_, .value v s⟩
    | failure cause s =>
      obtain rfl := (comesTo_iff_of_end rfl).mp ⟨fuel, h⟩
      exact ⟨_, .failure cause s⟩
    | become f args s => exact ⟨_, .become ⟨fuel, h⟩⟩
    | await f args pending s =>
      obtain ⟨⟨result, s'⟩, fuel', hcall, hle, hrun⟩ :=
        @exists_run_onto limits (.calling f args [] s) [.builtin pending] _ _ h
      cases fuel' with
      | zero => cases hrun
      | succ fuel' =>
        cases result with
        | ok v =>
          obtain ⟨calls, hcalls⟩ := ih fuel' (by omega) hrun
          exact ⟨_, .answered hcall hcalls⟩
        | error fault =>
          obtain rfl := (comesTo_iff_of_end rfl).mp ((comesTo_iff_of_step rfl).mp ⟨fuel' + 1, hrun⟩)
          exact ⟨_, .failed pending hcall⟩

end Machine

/-- What a call of a builtin comes to, its calls account for. -/
theorem returns_builtin_iff {b : Builtin} {home : ScopeRef} :
    Returns limits (.builtin b home) args s o ↔ ∃ calls, (b.run s args).Makes limits calls o := by
  calc
    Returns limits (.builtin b home) args s o ↔
        Machine.ComesTo limits (.calling (.builtin b home) args [] s) o := Iff.rfl
    _ ↔ Machine.ComesTo limits (.reply (b.run s args) []) o := Machine.comesTo_iff_of_step rfl
    _ ↔ ∃ calls, (b.run s args).Makes limits calls o :=
      ⟨fun h => h.elim fun _ => Machine.exists_makes_of_run, fun h => h.elim fun _ h => h.comesTo⟩

/-- The calls are made one after the other, each in the store that the one before has left. -/
inductive Consecutive (limits : Limits) : Store → List Call → Store → Prop where
  | nil (s : Store) : Consecutive limits s [] s
  | cons {f : Value} {args : List Value} {s s' : Store} {o : Outcome} {calls : List Call}
      (hcall : Returns limits f args s o) (hrest : Consecutive limits o.store calls s') :
      Consecutive limits s (⟨f, args, o⟩ :: calls) s'

section Replies

variable (s : Store) (f : Value) (done rest : List Value)

/-- Replying with a new array removes no array from the store. -/
theorem Reply.arrays_le_array (items : List Value) :
    s.arrays.size ≤ (array s items).store.arrays.size := (s.extent_le_newArray _).1

/-- Mapping removes no array from the store. -/
theorem Reply.arrays_le_map : s.arrays.size ≤ (map s f done rest).store.arrays.size := by
  cases rest with
  | nil => exact arrays_le_array ..
  | cons => exact Nat.le_refl _

/-- Filtering removes no array from the store. -/
theorem Reply.arrays_le_filter : s.arrays.size ≤ (filter s f done rest).store.arrays.size := by
  cases rest with
  | nil => exact arrays_le_array ..
  | cons => exact Nat.le_refl _

/-- Visiting removes no array from the store. -/
theorem Reply.arrays_le_visit : s.arrays.size ≤ (visit s f rest).store.arrays.size := by
  cases rest <;> exact Nat.le_refl _

/-- Finding removes no array from the store. -/
theorem Reply.arrays_le_find : s.arrays.size ≤ (find s f rest).store.arrays.size := by
  cases rest <;> exact Nat.le_refl _

/-- Folding removes no array from the store. -/
theorem Reply.arrays_le_fold (acc : Value) :
    s.arrays.size ≤ (fold s f acc rest).store.arrays.size := by
  cases rest <;> exact Nat.le_refl _

/-- Sorting by a function removes no array from the store. -/
theorem Reply.arrays_le_sort (query : Query Value (List Value)) :
    s.arrays.size ≤ (sort s f query).store.arrays.size := by
  cases query with
  | done => exact arrays_le_array ..
  | ask => exact Nat.le_refl _

end Replies

/-- No builtin removes an array from the store. -/
theorem Answers.arrays_le {b : Builtin} {r : Reply} (h : Answers s args b r) :
    s.arrays.size ≤ r.store.arrays.size := by
  cases h with
  | array => exact Reply.arrays_le_array ..
  | map => exact Reply.arrays_le_map ..
  | filter => exact Reply.arrays_le_filter ..
  | forEach => exact Reply.arrays_le_visit ..
  | find => exact Reply.arrays_le_find ..
  | reduce => exact Reply.arrays_le_fold ..
  | sort => exact Reply.arrays_le_sort ..
  | push | pop => simp [Reply.store, Store.pushItems, Store.popItem]
  | _ => exact Nat.le_refl _

/-- A builtin that goes on after a call removes no array from the store. -/
theorem Pending.arrays_le_resume (s : Store) (v : Value) (pending : Pending) :
    s.arrays.size ≤ (pending.resume s v).store.arrays.size := by
  cases pending with
  | mapping => exact Reply.arrays_le_map ..
  | filtering => exact Reply.arrays_le_filter ..
  | visiting => exact Reply.arrays_le_visit ..
  | finding =>
    rw [resume]
    split
    · exact Nat.le_refl _
    · exact Reply.arrays_le_find ..
  | folding => exact Reply.arrays_le_fold ..
  | sorting =>
    rw [resume]
    split
    · exact Nat.le_refl _
    · exact Reply.arrays_le_sort ..

namespace Machine

/-- No step takes an array away. -/
theorem Next.arrays_le {m m' : Machine} (h : Next limits m m') :
    m.store.arrays.size ≤ m'.store.arrays.size := by
  cases h with
  | builtin =>
    rw [store_reply]
    exact (Builtin.run_answers ..).arrays_le
  | resume =>
    rw [store_reply]
    exact Pending.arrays_le_resume ..
  | tracedCall | traced | tracedFault =>
    exact Nat.le_of_eq (congrArg Extent.arrays (Store.extent_record ..)).symm
  | define => exact Nat.le_of_eq (congrArg Extent.arrays (Store.extent_nameClosure ..)).symm
  | member hlearns | madeClass hlearns =>
    cases hlearns with
    | maker => exact Nat.le_refl _
    | method => exact Nat.le_of_eq (congrArg Extent.arrays (Store.extent_nameClosure ..)).symm
  | _ => exact Nat.le_refl _

end Machine

/-- A call removes no array from the store. -/
theorem Returns.arrays_le (h : Returns limits f args s o) :
    s.arrays.size ≤ o.store.arrays.size := by
  obtain ⟨fuel, hrun⟩ := h
  obtain ⟨m', hreaches, -, hstore⟩ := Machine.exists_end_of_run hrun
  rw [← hstore]
  exact hreaches.invariant (I := fun m => s.arrays.size ≤ m.store.arrays.size) (Nat.le_refl _)
    fun _ _ hnext ih => Nat.le_trans ih hnext.arrays_le

/-- Calls that are made one after the other remove no array from the store. -/
theorem Consecutive.arrays_le {calls : List Call} (h : Consecutive limits s calls s') :
    s.arrays.size ≤ s'.arrays.size := by
  induction h with
  | nil => exact Nat.le_refl _
  | cons hcall _ ih => exact Nat.le_trans hcall.arrays_le ih

/-- A new array leaves the others as they are, and one that is not there without elements. -/
theorem Store.items_newArray {r : ArrayRef} {items : Array Value}
    (h : r < s.arrays.size ∨ items = #[]) : (s.newArray items).2.items r = s.items r := by
  simp only [newArray, Store.items, Array.getElem?_push]
  split
  · subst r
    rcases h with h | rfl
    · exact absurd h (Nat.lt_irrefl _)
    · simp
  · rfl

/-- An array that is not in the store has no elements. -/
theorem Store.items_of_size_le {r : ArrayRef} (h : s.arrays.size ≤ r) : s.items r = #[] := by
  simp [Store.items, h]

/-- What some calls leave of an array, a new array leaves too; one that is not there stays without
elements if the new one has none then. -/
theorem Consecutive.items_newArray {calls : List Call} (h : Consecutive limits s calls s')
    {r : ArrayRef} {items : Array Value} (hitems : s.items r = #[] → items = #[]) :
    (s'.newArray items).2.items r = s'.items r := by
  apply Store.items_newArray
  rcases Nat.lt_or_ge r s.arrays.size with hr | hr
  · exact .inl (Nat.lt_of_lt_of_le hr h.arrays_le)
  · exact .inr (hitems (Store.items_of_size_le hr))

/-- A new array with the elements of an array in another order leaves that array as the calls have
left it. -/
theorem Consecutive.items_newArray_of_perm {calls : List Call} (h : Consecutive limits s calls s')
    {r : ArrayRef} {ys : List Value} (hperm : (s.items r).toList.Perm ys) :
    (s'.newArray ys.toArray).2.items r = s'.items r := by
  refine h.items_newArray fun hempty => ?_
  rw [hempty] at hperm
  rw [hperm.nil_eq]

end TinyScript
