import Mathlib.Logic.Relation
import TinyScript.Proofs.WellFormed

/-!
# Runs

The states that come up in a run, and the runs that end. A run from a state ends if and only if it
ends from any state that comes up in it. A fault ends every run, and only the start of an evaluation
is counted.
-/

namespace TinyScript

namespace Machine

variable {limits : Limits} {m m' : Machine}

/-- The second state comes up in the run from the first one. -/
def Reaches (limits : Limits) : Machine → Machine → Prop :=
  Relation.ReflTransGen fun m m' => step limits m = .inl m'

/-- The run from a state comes to an outcome. -/
def Ends (limits : Limits) (m : Machine) : Prop := ∃ fuel outcome, run limits fuel m = some outcome

/-- A state comes up in its own run. -/
theorem Reaches.refl (m : Machine) : Reaches limits m m := Relation.ReflTransGen.refl

/-- What comes up in the run from a state that comes up, comes up. -/
theorem Reaches.trans {m'' : Machine} (h : Reaches limits m m') (h' : Reaches limits m' m'') :
    Reaches limits m m'' := Relation.ReflTransGen.trans h h'

/-- The next state comes up. -/
theorem reaches_of_step (h : step limits m = .inl m') : Reaches limits m m' :=
  Relation.ReflTransGen.single h

/-- A call is made in one step. -/
theorem reaches_call (limits : Limits) (f : Value) (args : List Value) (stack : List Frame)
    (s : Store) : Reaches limits (calling f args stack s) (call f args stack s) :=
  reaches_of_step rfl

/-- A value is handed to the topmost frame in one step. -/
theorem reaches_resume (limits : Limits) (v : Value) (frame : Frame) (stack : List Frame)
    (s : Store) : Reaches limits (giving v (frame :: stack) s) (resume v frame stack s) :=
  reaches_of_step rfl

/-- The state after so many steps, or the last one. -/
def after (limits : Limits) : Nat → Machine → Machine
  | 0, m => m
  | n + 1, m =>
    match step limits m with
    | .inl m' => after limits n m'
    | .inr _ => m

/-- The state after so many steps comes up. -/
theorem reaches_after (limits : Limits) (n : Nat) (m : Machine) :
    Reaches limits m (after limits n m) := by
  induction n generalizing m with
  | zero => exact .refl m
  | succ n ih =>
    rw [after]
    split
    · rename_i m' hstep
      exact (reaches_of_step hstep).trans (ih m')
    · exact .refl m

/-- Whether a run ends does not depend on where in the run it is looked at. -/
theorem ends_iff_of_step (h : step limits m = .inl m') : Ends limits m ↔ Ends limits m' := by
  constructor
  · rintro ⟨fuel, outcome, hrun⟩
    cases fuel with
    | zero => exact nomatch hrun
    | succ fuel =>
      rw [run, h] at hrun
      exact ⟨fuel, outcome, hrun⟩
  · rintro ⟨fuel, outcome, hrun⟩
    refine ⟨fuel + 1, outcome, ?_⟩
    rw [run, h]
    exact hrun

/-- A run ends exactly if it ends from any state that comes up in it. -/
theorem Reaches.ends_iff (h : Reaches limits m m') : Ends limits m ↔ Ends limits m' := by
  induction h with
  | refl => exact Iff.rfl
  | tail _ hstep ih => exact ih.trans (ends_iff_of_step hstep)

/-- A run comes to the same outcome from any state that comes up in it. -/
theorem Reaches.exists_run {fuel : Nat} {o : Outcome} (h : Reaches limits m m')
    (hrun : run limits fuel m = some o) : ∃ fuel', run limits fuel' m' = some o := by
  induction h with
  | refl => exact ⟨fuel, hrun⟩
  | tail _ hstep ih =>
    obtain ⟨fuel', hrun'⟩ := ih
    cases fuel' with
    | zero => cases hrun'
    | succ fuel' =>
      rw [run, hstep] at hrun'
      exact ⟨fuel', hrun'⟩

/-- A value that nothing waits for is the outcome. -/
theorem ends_giving_nil (v : Value) (s : Store) : Ends limits (giving v [] s) := ⟨1, _, rfl⟩

/-- A fault passes all frames. -/
theorem ends_raising (fault : Fault) (stack : List Frame) (s : Store) :
    Ends limits (raising fault stack s) := by
  induction stack generalizing fault s with
  | nil => exact ⟨1, _, rfl⟩
  | cons frame stack ih =>
    rw [ends_iff_of_step rfl]
    cases frame <;> exact ih _ _

/-- All states that come up in a run are well formed if the first one is. -/
theorem Reaches.wellFormed (h : Reaches limits m m') (hm : m.WellFormed) : m'.WellFormed := by
  induction h with
  | refl => exact hm
  | tail _ hstep ih => exact ih.step hstep

end Machine

/-- The store that a builtin leaves. -/
def Reply.store : Reply → Store
  | value _ s | failure _ s | await _ _ _ s | become _ _ s => s

/-- Recording an event is not counted. -/
@[simp] theorem Store.steps_record (s : Store) (phase : Phase) (name : Text) :
    (s.record phase name).steps = s.steps := by
  unfold record
  split <;> rfl

/-- Naming a function is not counted. -/
@[simp] theorem Store.steps_nameClosure (s : Store) (v : Value) (name : Text) :
    (s.nameClosure v name).steps = s.steps := by
  cases v with
  | closure r => rfl
  | _ => rfl

section Replies

variable (s : Store) (f : Value) (done rest : List Value)

/-- Mapping is not counted. -/
theorem Reply.steps_map : (map s f done rest).store.steps = s.steps := by cases rest <;> rfl

/-- Filtering is not counted. -/
theorem Reply.steps_filter : (filter s f done rest).store.steps = s.steps := by cases rest <;> rfl

/-- Visiting is not counted. -/
theorem Reply.steps_visit : (visit s f rest).store.steps = s.steps := by cases rest <;> rfl

/-- Finding is not counted. -/
theorem Reply.steps_find : (find s f rest).store.steps = s.steps := by cases rest <;> rfl

/-- Folding is not counted. -/
theorem Reply.steps_fold (acc : Value) : (fold s f acc rest).store.steps = s.steps := by
  cases rest <;> rfl

/-- Sorting by a function is not counted. -/
theorem Reply.steps_sort (query : Query Value (List Value)) :
    (sort s f query).store.steps = s.steps := by cases query <;> rfl

end Replies

/-- What a builtin does is not counted. -/
theorem Answers.steps {s : Store} {args : List Value} {b : Builtin} {r : Reply}
    (h : Answers s args b r) : r.store.steps = s.steps := by
  cases h with
  | map => exact Reply.steps_map ..
  | filter => exact Reply.steps_filter ..
  | forEach => exact Reply.steps_visit ..
  | find => exact Reply.steps_find ..
  | reduce => exact Reply.steps_fold ..
  | sort => exact Reply.steps_sort ..
  | _ => rfl

/-- What a builtin does after a call is not counted. -/
theorem Pending.steps_resume (s : Store) (v : Value) (pending : Pending) :
    (pending.resume s v).store.steps = s.steps := by
  cases pending with
  | mapping => exact Reply.steps_map ..
  | filtering => exact Reply.steps_filter ..
  | visiting => exact Reply.steps_visit ..
  | finding =>
    rw [resume]
    split
    · rfl
    · exact Reply.steps_find ..
  | folding => exact Reply.steps_fold ..
  | sorting =>
    rw [resume]
    split
    · rfl
    · exact Reply.steps_sort ..

namespace Machine

variable {limits : Limits}

/-- The reply of a builtin is not counted. -/
theorem steps_reply (r : Reply) (stack : List Frame) :
    (reply r stack).store.steps = r.store.steps := by cases r <;> rfl

/-- Going on with the next operand is not counted itself. -/
theorem steps_operands (f : Value) (op : Expr) (done : List Value) (rest : List Expr)
    (scope : ScopeRef) (stack : List Frame) (s : Store) :
    (operands f op done rest scope stack s).store.steps = s.steps := by
  cases rest with
  | nil =>
    simp only [operands, enter]
    split
    · exact s.steps_record _ _
    · rfl
  | cons e rest => rfl

/-- Going on with the next member of a class is not counted itself. -/
theorem steps_nextMember (maker : Value) (methods : Methods) (plan : ClassPlan)
    (stack : List Frame) (s : Store) :
    (nextMember maker methods plan stack s).store.steps = s.steps := by
  unfold nextMember
  split <;> rfl

/-- Beginning a form is not counted itself. -/
theorem steps_begin (form : Form) (args : List Expr) (scope : ScopeRef) (stack : List Frame)
    (s : Store) : (begin form args scope stack s).store.steps = s.steps := by
  cases form with
  | branch | loop | sequence | define | assign =>
    simp only [begin]
    split <;> rfl
  | function =>
    simp only [begin]
    split
    · rfl
    · split <;> rfl
  | classForm =>
    simp only [begin, beginClass]
    split
    · split
      · split <;> rfl
      · rfl
    · rfl

/-- Past the limits, the start of an evaluation is not counted again. -/
theorem steps_start (e : Expr) (scope : ScopeRef) (stack : List Frame) (s : Store) :
    (start e scope stack s).store.steps = s.steps := by
  cases e with
  | number | string => rfl
  | word name p =>
    simp only [start]
    split <;> rfl
  | apply op args =>
    simp only [start]
    split
    · split
      · exact steps_begin ..
      · rfl
    · rfl

/-- The start of an evaluation is counted, whatever comes of it. -/
theorem steps_eval (e : Expr) (scope : ScopeRef) (stack : List Frame) (s : Store) :
    (eval limits e scope stack s).store.steps = s.steps + 1 := by
  simp only [eval]
  split
  · rfl
  · split
    · rfl
    · exact steps_start ..

/-- A call is not counted. -/
theorem steps_call (f : Value) (args : List Value) (stack : List Frame) (s : Store) :
    (call f args stack s).store.steps = s.steps := by
  cases f with
  | closure r =>
    simp only [call]
    split
    · rfl
    · split <;> rfl
  | builtin b home => exact (steps_reply _ _).trans (Builtin.run_answers b s args).steps
  | classRef r =>
    simp only [call]
    split <;> rfl
  | _ => rfl

/-- Handing a value to a frame is not counted. -/
theorem steps_resume (v : Value) (frame : Frame) (stack : List Frame) (s : Store) :
    (resume v frame stack s).store.steps = s.steps := by
  cases frame with
  | operator =>
    simp only [resume]
    split
    · exact steps_operands ..
    · rfl
  | operand => exact steps_operands ..
  | traced name => exact s.steps_record _ _
  | loopTest | assign | methodName =>
    simp only [resume]
    split <;> rfl
  | sequence rest => cases rest <;> rfl
  | define name => exact s.steps_nameClosure v name
  | classMaker =>
    simp only [resume]
    split
    · exact steps_nextMember ..
    · rfl
  | methodFunction =>
    simp only [resume]
    split
    · exact (steps_nextMember ..).trans (s.steps_nameClosure v _)
    · rfl
  | builtin pending => exact (steps_reply _ _).trans (pending.steps_resume s v)
  | _ => rfl

/-- Handing a fault to a frame is not counted. -/
theorem steps_unwind (fault : Fault) (frame : Frame) (stack : List Frame) (s : Store) :
    (unwind fault frame stack s).store.steps = s.steps := by
  cases frame with
  | traced name => exact s.steps_record _ _
  | _ => rfl

/-- The count never goes down. -/
theorem Reaches.steps_le {m m' : Machine} (h : Reaches limits m m') :
    m.store.steps ≤ m'.store.steps := by
  induction h with
  | refl => exact Nat.le_refl _
  | @tail m₁ m₂ _ hstep ih =>
    refine Nat.le_trans ih ?_
    cases m₁ with
    | evaluating e scope stack s =>
      obtain rfl := Sum.inl.inj hstep
      rw [steps_eval]
      exact Nat.le_succ _
    | calling f args stack s =>
      obtain rfl := Sum.inl.inj hstep
      exact Nat.le_of_eq (steps_call f args stack s).symm
    | giving v stack s =>
      cases stack with
      | nil => exact nomatch hstep
      | cons frame stack =>
        obtain rfl := Sum.inl.inj hstep
        exact Nat.le_of_eq (steps_resume v frame stack s).symm
    | raising fault stack s =>
      cases stack with
      | nil => exact nomatch hstep
      | cons frame stack =>
        obtain rfl := Sum.inl.inj hstep
        exact Nat.le_of_eq (steps_unwind fault frame stack s).symm

end Machine

end TinyScript
