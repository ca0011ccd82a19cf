import TinyScript.Proofs.LargerLimits
import TinyScript.Proofs.Views

/-!
# Recorded calls

Recording calls only observes. Leave out the record, and the frames that end a recorded call: then a
step of a recording run is a step of the run without a record, or no step at all. So the two come to
the same outcome. However a run ends, the calls that it has recorded have all begun and ended, each
inside another one or after it.
-/

namespace TinyScript

/-- The store without its record of calls. -/
def Store.unrecorded (s : Store) : Store := { s with events := none }

/-- Recording an event changes nothing but the record. -/
theorem Store.unrecorded_record (s : Store) (phase : Phase) (name : Text) :
    (s.record phase name).unrecorded = s.unrecorded := by
  unfold record
  split <;> rfl

/-- A stack without the frames that end a recorded call. -/
def Frame.untraced (stack : List Frame) : List Frame := stack.filter (·.tracedName?.isNone)

/-- A frame that ends no recorded call stays. -/
theorem Frame.untraced_cons {frame : Frame} (hframe : frame.tracedName? = none)
    (stack : List Frame) : untraced (frame :: stack) = frame :: untraced stack :=
  List.filter_cons_of_pos (by simp [hframe])

/-- An outcome without the record of calls. -/
def Outcome.unrecorded (o : Outcome) : Outcome := { o with store := o.store.unrecorded }

namespace Machine

/-- A state without the record of calls and without the frames that write to it. -/
def unrecorded : Machine → Machine
  | evaluating e scope stack s => evaluating e scope (Frame.untraced stack) s.unrecorded
  | calling f args stack s => calling f args (Frame.untraced stack) s.unrecorded
  | giving v stack s => giving v (Frame.untraced stack) s.unrecorded
  | raising fault stack s => raising fault (Frame.untraced stack) s.unrecorded

/-- The view of states without their record. -/
def unrecordedView : View where
  toOutputView := .plain
  events _ := none
  stack := Frame.untraced
  stack_cons := Frame.untraced_cons
  map_enter f op args rest s := by
    unfold enter
    split
    · exact congrArg (calling f args (Frame.untraced rest)) (s.unrecorded_record _ _)
    · rfl

/-- The view of a state without its record is the state without its record. -/
theorem machine_unrecordedView (m : Machine) : unrecordedView.machine m = m.unrecorded := by
  cases m <;> rfl

/-- Of a step that only ends a recorded call nothing is left without the record. -/
theorem EndsCall.unrecorded_eq {m m' : Machine} (h : m.EndsCall m') :
    m'.unrecorded = m.unrecorded := by
  cases h with
  | giving v name stack s => exact congrArg (Machine.giving v _) (s.unrecorded_record _ _)
  | raising fault name stack s => exact congrArg (Machine.raising fault _) (s.unrecorded_record _ _)

/-- The end of a recorded call removes a frame. -/
theorem EndsCall.length_stack_lt {m m' : Machine} (h : m.EndsCall m') :
    m'.stack.length < m.stack.length := by
  cases h <;> exact Nat.lt_succ_self _

/-- A step with the record left out is a step without a record, unless it only ends a recorded
call. -/
theorem unrecorded_step (limits : Limits) (m : Machine) :
    (∃ m', step limits m = .inl m' ∧ m'.unrecorded = m.unrecorded ∧
      m'.stack.length < m.stack.length) ∨
    step limits m.unrecorded = (step limits m).map unrecorded Outcome.unrecorded := by
  cases hstep : step limits m with
  | inl m' =>
    rcases unrecordedView.step_machine hstep with hend | hseen
    · exact .inl ⟨m', rfl, hend.unrecorded_eq, hend.length_stack_lt⟩
    · rw [machine_unrecordedView, machine_unrecordedView] at hseen
      exact .inr hseen
  | inr o =>
    right
    obtain rfl := eq_onto_of_step hstep
    obtain ⟨result, s⟩ := o
    cases result <;> rfl

/-- A run that records comes to what it comes to without the record, and not sooner. -/
theorem run_unrecorded {limits : Limits} {fuel : Nat} {m : Machine} {o : Outcome}
    (h : run limits fuel m = some o) : run limits fuel m.unrecorded = some o.unrecorded := by
  induction fuel generalizing m with
  | zero => cases h
  | succ fuel ih =>
    rcases unrecorded_step limits m with ⟨m', hstep, hsame, -⟩ | hstep
    · rw [run, hstep] at h
      rw [← hsame]
      exact run_of_le (ih h) (Nat.le_succ fuel)
    · rw [run, hstep]
      cases hnext : step limits m with
      | inl m' =>
        rw [run, hnext] at h
        exact ih h
      | inr outcome =>
        rw [run, hnext] at h
        obtain rfl := Option.some.inj h
        rfl

/-- A run ends if it ends without the record: there are only so many recorded calls to end before
the next step of the run without one. -/
theorem ends_of_unrecorded {limits : Limits} {fuel : Nat} {m : Machine} {o : Outcome}
    (h : run limits fuel m.unrecorded = some o) : Ends limits m := by
  induction fuel generalizing m with
  | zero => cases h
  | succ fuel ih =>
    generalize hn : m.stack.length = n
    induction n using Nat.strong_induction_on generalizing m with
    | _ n ihn =>
      rcases unrecorded_step limits m with ⟨m', hstep, hsame, hlength⟩ | hstep
      · rw [ends_iff_of_step hstep]
        rw [← hsame] at h
        exact ihn _ (hn ▸ hlength) h rfl
      · cases hnext : step limits m with
        | inl m' =>
          rw [ends_iff_of_step hnext]
          rw [run, hstep, hnext] at h
          exact ih h
        | inr outcome =>
          exact ⟨1, outcome, by rw [run, hnext]⟩

end Machine

/-- Recorded calls, oldest first, that have all begun and ended, each inside another one or after
it. -/
inductive Nested : List CallEvent → Prop where
  | nil : Nested []
  | call {inside later : List CallEvent} (name : Text) (hinside : Nested inside)
      (hlater : Nested later) :
      Nested (⟨name, .begins⟩ :: inside ++ ⟨name, .ends⟩ :: later)

/-- Recorded calls, oldest first, after which those with the given names, innermost first, have
begun and not ended. -/
inductive Underway : List Text → List CallEvent → Prop where
  | nil {calls : List CallEvent} (hcalls : Nested calls) : Underway [] calls
  | begin {names : List Text} {earlier inside : List CallEvent} (name : Text)
      (hearlier : Underway names earlier) (hinside : Nested inside) :
      Underway (name :: names) (earlier ++ ⟨name, .begins⟩ :: inside)

/-- Calls that have ended may be followed by such calls. -/
theorem Nested.append {calls later : List CallEvent} (hcalls : Nested calls)
    (hlater : Nested later) : Nested (calls ++ later) := by
  induction hcalls with
  | nil => exact hlater
  | call name hinside _ _ ih =>
    simp only [List.append_assoc, List.cons_append]
    exact .call name hinside ih

/-- Calls that have ended leave those under way as they are. -/
theorem Underway.append {names : List Text} {calls later : List CallEvent}
    (hcalls : Underway names calls) (hlater : Nested later) : Underway names (calls ++ later) := by
  cases hcalls with
  | nil hcalls => exact .nil (hcalls.append hlater)
  | begin name hearlier hinside =>
    rw [List.append_assoc, List.cons_append]
    exact .begin name hearlier (hinside.append hlater)

/-- A call begins. -/
theorem Underway.enter {names : List Text} {calls : List CallEvent} (h : Underway names calls)
    (name : Text) : Underway (name :: names) (calls ++ [⟨name, .begins⟩]) :=
  .begin name h .nil

/-- The innermost call ends. -/
theorem Underway.leave {name : Text} {names : List Text} {calls : List CallEvent}
    (h : Underway (name :: names) calls) : Underway names (calls ++ [⟨name, .ends⟩]) := by
  cases h with
  | begin _ hearlier hinside =>
    rw [List.append_assoc, List.cons_append]
    exact hearlier.append (.call name hinside .nil)

/-- If no call is under way, all have ended. -/
theorem Underway.nested {calls : List CallEvent} (h : Underway [] calls) : Nested calls := by
  cases h with
  | nil hcalls => exact hcalls

namespace Store

variable (s : Store) (v : Value) (name : Text)

/-- Naming a function leaves the record alone. -/
theorem events_nameClosure : (s.nameClosure v name).events = s.events := by
  cases v <;> rfl

/-- An event is recorded in front of the older ones. -/
theorem events_record {before : List CallEvent} (h : s.events = some before) (phase : Phase) :
    (s.record phase name).events = some (⟨name, phase⟩ :: before) := by
  simp only [record, h]

end Store

/-- What a class form learns on the way leaves the record alone. -/
theorem Frame.Learns.events {s s' : Store} {v maker : Value} {frame : Frame} {methods : Methods}
    {plan : ClassPlan} (h : frame.Learns s v maker methods plan s') : s'.events = s.events := by
  cases h with
  | maker => rfl
  | method => exact s.events_nameClosure ..

namespace Machine

variable {limits : Limits} {m m' : Machine} {before : List CallEvent}

/-- The names of the recorded calls that are under way, innermost first. -/
def calls (m : Machine) : List Text := m.stack.filterMap Frame.tracedName?

/-- On top of an older record, the calls recorded are those that have ended and those that are under
way. -/
def Records (before : List CallEvent) (m : Machine) : Prop :=
  ∃ events, m.store.events = some (events.reverse ++ before) ∧ Underway m.calls events

/-- The reply of a builtin begins and ends no recorded call. -/
theorem calls_reply (r : Reply) (stack : List Frame) :
    (reply r stack).calls = stack.filterMap Frame.tracedName? := by
  cases r <;> rfl

/-- The account of calls stays right if neither the record nor the calls under way change. -/
theorem Records.of_same (hm : m.Records before) (hevents : m'.store.events = m.store.events)
    (hcalls : m'.calls = m.calls) : m'.Records before := by
  obtain ⟨events, hrecord, hunderway⟩ := hm
  exact ⟨events, hevents.trans hrecord, hcalls ▸ hunderway⟩

/-- A step that begins a recorded call. -/
theorem Records.enter {name : Text} (hm : m.Records before)
    (hstore : m'.store = m.store.record .begins name) (hcalls : m'.calls = name :: m.calls) :
    m'.Records before := by
  obtain ⟨events, hrecord, hunderway⟩ := hm
  refine ⟨events ++ [⟨name, .begins⟩], ?_, ?_⟩
  · rw [hstore, m.store.events_record name hrecord, List.reverse_concat]
    rfl
  · rw [hcalls]
    exact hunderway.enter name

/-- A step that ends a recorded call. -/
theorem Records.leave {name : Text} (hm : m.Records before)
    (hstore : m'.store = m.store.record .ends name) (hcalls : m.calls = name :: m'.calls) :
    m'.Records before := by
  obtain ⟨events, hrecord, hunderway⟩ := hm
  refine ⟨events ++ [⟨name, .ends⟩], ?_, ?_⟩
  · rw [hstore, m.store.events_record name hrecord, List.reverse_concat]
    rfl
  · rw [hcalls] at hunderway
    exact hunderway.leave

/-- A step records a call where its frame is pushed, and the end of one where it is dropped. -/
theorem Next.records (h : Next limits m m') (hm : m.Records before) : m'.Records before := by
  cases h with
  | exceeded | literal | word | unbound | operator | nothing | function | malformed | body | make
  | uncallable | leave | assign | locate =>
    exact hm.of_same rfl rfl
  | form hopens => cases hopens <;> exact hm.of_same rfl rfl
  | @builtin b home args stack s =>
    apply hm.of_same
    · rw [store_reply]
      exact (b.run_answers s args).sameOutline.events
    · exact calls_reply ..
  | @resume v pending stack s =>
    apply hm.of_same
    · rw [store_reply]
      exact (pending.sameOutline_resume s v).events
    · exact calls_reply ..
  | operand hcollects | call hcollects => cases hcollects <;> exact hm.of_same rfl rfl
  | tracedCall hcollects => cases hcollects <;> exact hm.enter rfl rfl
  | traced | tracedFault => exact hm.leave rfl rfl
  | goOn hcontinues => cases hcontinues <;> exact hm.of_same rfl rfl
  | give hgives => cases hgives <;> exact hm.of_same rfl rfl
  | @define v name scope stack s => exact hm.of_same (s.events_nameClosure v name) rfl
  | member hlearns | madeClass hlearns =>
    have hevents := hlearns.events
    cases hlearns <;> exact hm.of_same hevents rfl
  | rejected hrejects => cases hrejects <;> exact hm.of_same rfl rfl
  | @pass fault frame stack s hsilent =>
    cases frame with
    | application | traced => exact hsilent.elim
    | _ => exact hm.of_same rfl rfl

/-- All calls that a run records have ended when it has. -/
theorem nested_of_run {fuel : Nat} {e : Expr} {scope : ScopeRef} {s : Store} {o : Outcome}
    (hs : s.events = some before) (h : run limits fuel (evaluating e scope [] s) = some o) :
    ∃ events, o.store.events = some (events.reverse ++ before) ∧ Nested events := by
  have hstart : (evaluating e scope [] s).Records before := ⟨[], hs, .nil .nil⟩
  obtain ⟨m, hreaches, hstack, hstore⟩ := exists_end_of_run h
  obtain ⟨events, hevents, hunderway⟩ :=
    hreaches.invariant (I := Records before) hstart fun _ _ => Next.records
  rw [hstore] at hevents
  rw [calls, hstack, List.filterMap_nil] at hunderway
  exact ⟨events, hevents, hunderway.nested⟩

end Machine

section Programs

variable {limits : Limits} {fuel : Nat} {src : Text} {scope : ScopeRef} {s : Store} {o : Outcome}

/-- A program that records calls comes, without the record, to what it comes to when it records
none. -/
theorem execute_unrecorded (h : execute limits fuel src scope s = some o) :
    execute limits fuel src scope s.unrecorded = some o.unrecorded := by
  unfold execute at h ⊢
  cases hparse : parse src with
  | error fault =>
    rw [hparse] at h
    obtain rfl := Option.some.inj h
    rfl
  | ok e =>
    rw [hparse] at h
    exact Machine.run_unrecorded h

/-- A program that ends when no calls are recorded ends when they are. -/
theorem exists_execute_of_unrecorded (h : execute limits fuel src scope s.unrecorded = some o) :
    ∃ fuel' o', execute limits fuel' src scope s = some o' := by
  unfold execute at h ⊢
  cases hparse : parse src with
  | error fault => exact ⟨0, _, rfl⟩
  | ok e =>
    rw [hparse] at h
    exact Machine.ends_of_unrecorded (m := .evaluating e scope [] { s with steps := 0 }) h

/-- However a program ends, the calls that it has recorded have all begun and ended. -/
theorem nested_of_execute {before : List CallEvent} (hs : s.events = some before)
    (h : execute limits fuel src scope s = some o) :
    ∃ events, o.store.events = some (events.reverse ++ before) ∧ Nested events := by
  unfold execute at h
  cases hparse : parse src with
  | error fault =>
    rw [hparse] at h
    obtain rfl := Option.some.inj h
    exact ⟨[], hs, .nil⟩
  | ok e =>
    rw [hparse] at h
    exact Machine.nested_of_run (s := { s with steps := 0 }) hs h

end Programs

/-- A program that runs with its calls recorded and one that runs without a record come to the same
value or fault and leave the same output and store, if one of them comes to anything. However the
recorded run ends, the calls that it adds to the record have all begun and ended, properly
nested. -/
theorem execute_recording (limits : Limits) (src : Text) (scope : ScopeRef) (s : Store)
    (before : List CallEvent) :
    (∀ fuel o, execute limits fuel src scope { s with events := some before } = some o →
      execute limits fuel src scope { s with events := none } =
          some ⟨o.result, { o.store with events := none }⟩ ∧
        ∃ events, o.store.events = some (events.reverse ++ before) ∧ Nested events) ∧
    ∀ fuel o, execute limits fuel src scope { s with events := none } = some o →
      ∃ fuel' o', execute limits fuel' src scope { s with events := some before } = some o' ∧
        o = ⟨o'.result, { o'.store with events := none }⟩ := by
  let recording : Store := { s with events := some before }
  have hwithout {fuel : Nat} {o : Outcome} (h : execute limits fuel src scope recording = some o) :
      execute limits fuel src scope { s with events := none } = some o.unrecorded :=
    execute_unrecorded (s := recording) h
  constructor
  · intro fuel o h
    exact ⟨hwithout h, nested_of_execute rfl h⟩
  · intro fuel o h
    obtain ⟨fuel', o', h'⟩ := exists_execute_of_unrecorded (s := recording) h
    refine ⟨fuel', o', h', ?_⟩
    have hlong := execute_of_le h (Nat.le_max_left fuel fuel')
    have hlong' := execute_of_le (hwithout h') (Nat.le_max_right fuel fuel')
    exact Option.some.inj (hlong.symm.trans hlong')

/-- A builtin that fails inside a function: without a record the run comes to the same fault, and
both calls have ended. -/
theorem execute_recording_failure :
    ∃ o o' : Outcome, ∃ fault, ∃ events : List CallEvent,
      execute ⟨none, none⟩ 100 "do(define(f, fun(g, g())), f(print))"
        (Store.initial (.fresh none) false).1
        { (Store.initial (.fresh none) false).2 with events := some [] } = some o ∧
      execute ⟨none, none⟩ 100 "do(define(f, fun(g, g())), f(print))"
        (Store.initial (.fresh none) false).1
        { (Store.initial (.fresh none) false).2 with events := none } = some o' ∧
      o.result = .error fault ∧ o'.result = .error fault ∧
      o.store.events = some events.reverse ∧ events.length = 4 ∧ Nested events := by
  obtain ⟨o, ho, hcheck⟩ := (Option.any_eq_true ..).mp (by decide +kernel :
    ((execute ⟨none, none⟩ 100 "do(define(f, fun(g, g())), f(print))"
      (Store.initial (.fresh none) false).1
      { (Store.initial (.fresh none) false).2 with events := some [] }).any fun o =>
        !o.result.isOk && o.store.events.map List.length == some 4) = true)
  simp only [Bool.and_eq_true, Bool.not_eq_true', beq_iff_eq] at hcheck
  obtain ⟨hwithout, events, hevents, hnested⟩ :=
    (execute_recording ⟨none, none⟩ _ _ (Store.initial (.fresh none) false).2 []).1 100 o ho
  rw [List.append_nil] at hevents
  cases hresult : o.result with
  | ok v =>
    rw [hresult] at hcheck
    cases hcheck.1
  | error fault =>
    refine ⟨o, _, fault, events, ho, hwithout, hresult, hresult, hevents, ?_, hnested⟩
    simpa [hevents] using hcheck.2

end TinyScript
