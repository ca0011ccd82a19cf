import TinyScript.Proofs.CallsBack

/-!
# Builtins that call a function on the elements of an array

Mapping, filtering, visiting, finding and folding look at the array once, when they are called. The
function they are handed is called with the elements that the array had then, in their order and
once each, whatever the function does to the array meanwhile. The results of the calls are all that
the outcome depends on, and between the calls nothing is written.
-/

namespace TinyScript

variable {limits : Limits} {f : Value} {s s' : Store} {o : Outcome} {calls : List Call}

/-- The calls of a function for the elements of a list in turn. The arguments are made of the result
of the call before, if there is one, and the element. Elements are left out only behind a call that
fails or whose result is one to stop at. -/
inductive Rounds (f : Value) (request : Option Value → Value → List Value) (stop : Value → Bool) :
    Option Value → List Value → List Call → Prop where
  | ended (last : Option Value) : Rounds f request stop last [] []
  | failed (last : Option Value) (x : Value) (rest : List Value) (fault : Fault) (s : Store) :
      Rounds f request stop last (x :: rest) [⟨f, request last x, ⟨.error fault, s⟩⟩]
  | stopped (last : Option Value) (x : Value) (rest : List Value) {v : Value} (s : Store)
      (hv : stop v = true) :
      Rounds f request stop last (x :: rest) [⟨f, request last x, ⟨.ok v, s⟩⟩]
  | goesOn (last : Option Value) (x : Value) {rest : List Value} {v : Value} (s : Store)
      {calls : List Call} (hv : stop v = false)
      (hrest : Rounds f request stop (some v) rest calls) :
      Rounds f request stop last (x :: rest) (⟨f, request last x, ⟨.ok v, s⟩⟩ :: calls)

/-- The arguments of a call that gets the element alone. -/
def alone (_ : Option Value) (x : Value) : List Value := [x]

/-- The arguments of a call that gets the result of the call before, or a first value, and the
element. -/
def folding (acc : Value) (last : Option Value) (x : Value) : List Value := [last.getD acc, x]

/-- The results of some calls, or the fault of the first one that failed. -/
def Call.values : List Call → Except Fault (List Value)
  | [] => .ok []
  | c :: calls =>
    match c.outcome.result with
    | .error fault => .error fault
    | .ok v => (values calls).map (v :: ·)

/-- What comes of some calls: the fault of the first one that failed, or what is made of their
results. -/
def Outcome.conclude (calls : List Call) (s : Store) (finish : List Value → Value × Store) :
    Outcome :=
  match Call.values calls with
  | .error fault => ⟨.error fault, s⟩
  | .ok vs => .given (finish vs)

/-- A call that gave a value adds this value in front of the other results. -/
theorem Outcome.conclude_ok (f : Value) (args : List Value) (v : Value) (s s' : Store)
    (calls : List Call) (finish : List Value → Value × Store) :
    conclude (⟨f, args, ⟨.ok v, s⟩⟩ :: calls) s' finish =
      conclude calls s' fun vs => finish (v :: vs) := by
  simp only [conclude, Call.values]
  cases Call.values calls <;> rfl

/-- How a builtin goes through the elements of a list: the reply that it is at a point, what it
waits for, what it remembers, and what it makes of the elements left and their results. -/
structure Pass (f : Value) (request : Option Value → Value → List Value) (stop : Value → Bool) where
  Memory : Type
  go : Memory → Option Value → Store → List Value → Reply
  pending : Memory → Value → List Value → Pending
  next : Memory → Value → Value → Memory
  finish : Memory → Option Value → List Value → List Value → Store → Value × Store
  go_nil : ∀ m last s,
    go m last s [] = .value (finish m last [] [] s).1 (finish m last [] [] s).2
  go_cons : ∀ m last s x rest,
    go m last s (x :: rest) = .await f (request last x) (pending m x rest) s
  resume_stop : ∀ m last x rest s v, stop v = true → (pending m x rest).resume s v =
    .value (finish m last (x :: rest) [v] s).1 (finish m last (x :: rest) [v] s).2
  resume_next : ∀ m x rest s v, stop v = false →
    (pending m x rest).resume s v = go (next m x v) (some v) s rest
  finish_next : ∀ m last x rest s v vs, stop v = false →
    finish m last (x :: rest) (v :: vs) s = finish (next m x v) (some v) rest vs s

/-- The calls of a pass and what comes of it, by induction on the elements left. A result to stop at
leaves the other elements out. -/
theorem Pass.makes_iff {request : Option Value → Value → List Value} {stop : Value → Bool}
    (pass : Pass f request stop) (m : pass.Memory) (last : Option Value) (items : List Value) :
    (pass.go m last s items).Makes limits calls o ↔
      ∃ s', Consecutive limits s calls s' ∧ Rounds f request stop last items calls ∧
        o = .conclude calls s' fun vs => pass.finish m last items vs s' := by
  induction items generalizing m last s calls with
  | nil =>
    rw [pass.go_nil, Reply.makes_value_iff]
    constructor
    · rintro ⟨rfl, rfl⟩
      exact ⟨s, .nil s, .ended last, rfl⟩
    · rintro ⟨s', hcalls, hrounds, rfl⟩
      cases hrounds
      cases hcalls
      exact ⟨rfl, rfl⟩
  | cons x rest ih =>
    have hfinish : ∀ (s' s₁ : Store) (v : Value) (calls : List Call), stop v = false →
        (Outcome.conclude (⟨f, request last x, ⟨.ok v, s₁⟩⟩ :: calls) s' fun vs =>
          pass.finish m last (x :: rest) vs s') =
        .conclude calls s' fun vs => pass.finish (pass.next m x v) (some v) rest vs s' := by
      intro s' s₁ v calls hv
      rw [Outcome.conclude_ok]
      simp only [pass.finish_next _ _ _ _ _ _ _ hv]
    rw [pass.go_cons]
    constructor
    · intro h
      cases h with
      | failed _ hcall => exact ⟨_, .cons hcall (.nil _), .failed .., rfl⟩
      | @answered _ _ _ _ s₁ v _ _ hcall hrest =>
        cases hv : stop v with
        | true =>
          rw [pass.resume_stop _ last _ _ _ _ hv, Reply.makes_value_iff] at hrest
          obtain ⟨rfl, rfl⟩ := hrest
          exact ⟨s₁, .cons hcall (.nil _), .stopped _ _ _ _ hv, rfl⟩
        | false =>
          rw [pass.resume_next _ _ _ _ _ hv, ih] at hrest
          obtain ⟨s', hcalls, hrounds, rfl⟩ := hrest
          exact ⟨s', .cons hcall hcalls, .goesOn _ _ _ hv hrounds, (hfinish _ _ _ _ hv).symm⟩
    · rintro ⟨s', hcalls, hrounds, rfl⟩
      cases hcalls with
      | nil => cases hrounds
      | cons hcall hcalls =>
        cases hrounds with
        | failed =>
          cases hcalls
          exact .failed _ hcall
        | stopped _ _ _ _ hv =>
          cases hcalls
          refine .answered hcall ?_
          rw [pass.resume_stop _ last _ _ _ _ hv]
          exact .value _ _
        | goesOn _ _ _ hv hrounds =>
          refine .answered hcall ?_
          rw [pass.resume_next _ _ _ _ _ hv, ih]
          exact ⟨s', hcalls, hrounds, hfinish _ _ _ _ hv⟩

/-- Only the boolean false counts as false. -/
theorem Value.isTruthy_eq (v : Value) : v.isTruthy = decide (v ≠ .boolean false) := by
  cases v with
  | boolean b => cases b <;> rfl
  | _ => simp [isTruthy]

/-- The elements of a list whose results are not the boolean false. -/
def chosen (items results : List Value) : List Value :=
  ((items.zip results).filter (·.2 ≠ .boolean false)).map (·.1)

/-- Mapping. What is remembered are the results, the last one first. -/
def mapPass (f : Value) : Pass f alone fun _ => false where
  Memory := List Value
  go done _ s rest := Reply.map s f done rest
  pending done _ rest := .mapping f done rest
  next done _ v := v :: done
  finish done _ _ vs s := s.newArray (done.reverse ++ vs).toArray
  go_nil done last s := by rw [List.append_nil]; rfl
  go_cons _ _ _ _ _ := rfl
  resume_stop _ _ _ _ _ _ hv := by cases hv
  resume_next _ _ _ _ _ _ := rfl
  finish_next done last x rest s v vs _ := by rw [List.reverse_cons, List.append_assoc]; rfl

/-- Filtering. What is remembered are the elements chosen, the last one first. -/
def filterPass (f : Value) : Pass f alone fun _ => false where
  Memory := List Value
  go done _ s rest := Reply.filter s f done rest
  pending done x rest := .filtering f x done rest
  next done x v := if v ≠ .boolean false then x :: done else done
  finish done _ items vs s := s.newArray (done.reverse ++ chosen items vs).toArray
  go_nil done last s := by rw [show chosen [] [] = [] from rfl, List.append_nil]; rfl
  go_cons _ _ _ _ _ := rfl
  resume_stop _ _ _ _ _ _ hv := by cases hv
  resume_next _ _ _ _ _ _ := by simp [Pending.resume, Value.isTruthy_eq]
  finish_next done last x rest s v vs _ := by by_cases hv : v = .boolean false <;> simp [chosen, hv]

/-- Visiting. -/
def visitPass (f : Value) : Pass f alone fun _ => false where
  Memory := Unit
  go _ _ s rest := Reply.visit s f rest
  pending _ _ rest := .visiting f rest
  next _ _ _ := ()
  finish _ _ _ _ s := (.boolean false, s)
  go_nil _ _ _ := rfl
  go_cons _ _ _ _ _ := rfl
  resume_stop _ _ _ _ _ _ hv := by cases hv
  resume_next _ _ _ _ _ _ := rfl
  finish_next _ _ _ _ _ _ _ _ := rfl

/-- Finding stops at the first result that is not the boolean false. -/
def findPass (f : Value) : Pass f alone (· ≠ .boolean false) where
  Memory := Unit
  go _ _ s rest := Reply.find s f rest
  pending _ x rest := .finding f x rest
  next _ _ _ := ()
  finish _ _ items vs s := ((chosen items vs).headD (.boolean false), s)
  go_nil _ _ _ := rfl
  go_cons _ _ _ _ _ := rfl
  resume_stop _ _ x rest s v hv := by
    rw [decide_eq_true_iff] at hv
    simp [Pending.resume, Value.isTruthy_eq, hv, chosen]
  resume_next _ _ _ _ _ hv := by simp [Pending.resume, Value.isTruthy_eq, hv]
  finish_next _ _ x rest s v vs hv := by
    rw [decide_eq_false_iff_not, not_not] at hv
    simp [chosen, hv]

/-- Folding. -/
def foldPass (f acc : Value) : Pass f (folding acc) fun _ => false where
  Memory := Unit
  go _ last s rest := Reply.fold s f (last.getD acc) rest
  pending _ _ rest := .folding f rest
  next _ _ _ := ()
  finish _ last _ vs s := (vs.getLastD (last.getD acc), s)
  go_nil _ _ _ := rfl
  go_cons _ _ _ _ _ := rfl
  resume_stop _ _ _ _ _ _ hv := by cases hv
  resume_next _ _ _ _ _ _ := rfl
  finish_next _ last x rest s v vs _ := by rw [List.getLastD_cons]; rfl

/-- Builtins that are handed an array and something callable go through its elements. -/
theorem Builtin.run_of_callable {r : ArrayRef} (hf : f.isCallable = true) :
    Builtin.map.run s [.array r, f] = Reply.map s f [] (s.items r).toList ∧
    Builtin.filter.run s [.array r, f] = Reply.filter s f [] (s.items r).toList ∧
    Builtin.forEach.run s [.array r, f] = Reply.visit s f (s.items r).toList ∧
    Builtin.find.run s [.array r, f] = Reply.find s f (s.items r).toList ∧
    ∀ acc, Builtin.reduce.run s [.array r, f, acc] = Reply.fold s f acc (s.items r).toList := by
  cases f with
  | closure | builtin | classRef => exact ⟨rfl, rfl, rfl, rfl, fun _ => rfl⟩
  | _ => cases hf

/-- Some calls of a function are those for the elements that an array had before them, and an
outcome is what comes of them. Only the calls write to the store, except that the outcome may be a
new array. -/
def GoesThrough (limits : Limits) (f : Value) (request : Option Value → Value → List Value)
    (stop : Value → Bool) (s : Store) (r : ArrayRef)
    (finish : List Value → Store → Value × Store) (calls : List Call) (o : Outcome) : Prop :=
  ∃ s', Consecutive limits s calls s' ∧ Rounds f request stop none (s.items r).toList calls ∧
    o = .conclude calls s' (finish · s') ∧ o.store.items r = s'.items r

/-- A pass that is never stopped has a result for each element. -/
theorem Rounds.length_values {request : Option Value → Value → List Value} {last : Option Value}
    {items vs : List Value} (h : Rounds f request (fun _ => false) last items calls)
    (hvs : Call.values calls = .ok vs) : vs.length = items.length := by
  induction h generalizing vs with
  | ended =>
    obtain rfl := Except.ok.inj hvs
    rfl
  | failed => cases hvs
  | stopped _ _ _ _ hv => cases hv
  | @goesOn _ _ _ v _ calls _ _ ih =>
    simp only [Call.values] at hvs
    cases hrest : Call.values calls with
    | error fault =>
      rw [hrest] at hvs
      cases hvs
    | ok ws =>
      rw [hrest] at hvs
      obtain rfl := Except.ok.inj hvs
      rw [List.length_cons, List.length_cons, ih hrest]

/-- A pass through the elements of an array that does not write to it. -/
theorem Pass.makes_iff_goesThrough {request : Option Value → Value → List Value}
    {stop : Value → Bool} (pass : Pass f request stop) (m : pass.Memory) {r : ArrayRef}
    (hitems : ∀ s' vs, Consecutive limits s calls s' →
      Rounds f request stop none (s.items r).toList calls → Call.values calls = .ok vs →
      (pass.finish m none (s.items r).toList vs s').2.items r = s'.items r) :
    (pass.go m none s (s.items r).toList).Makes limits calls o ↔
      GoesThrough limits f request stop s r (pass.finish m none (s.items r).toList) calls o := by
  rw [pass.makes_iff]
  constructor
  · rintro ⟨s', hcalls, hrounds, rfl⟩
    refine ⟨s', hcalls, hrounds, rfl, ?_⟩
    unfold Outcome.conclude
    cases hvs : Call.values calls with
    | error fault => rfl
    | ok vs => exact hitems s' vs hcalls hrounds hvs
  · rintro ⟨s', hcalls, hrounds, rfl, -⟩
    exact ⟨s', hcalls, hrounds, rfl⟩

/-- Builtins that call a function on an array go by the elements that the array has when they are
called, whatever the function does to it. -/
theorem builtins_go_by_snapshot (limits : Limits) (home : ScopeRef) (s : Store) (r : ArrayRef)
    (f : Value) (hf : f.isCallable = true) :
    let xs := (s.items r).toList
    (∀ b args o, Returns limits (.builtin b home) args s o ↔
      ∃ calls, (b.run s args).Makes limits calls o) ∧
    (∀ calls o, (Builtin.map.run s [.array r, f]).Makes limits calls o ↔
      GoesThrough limits f alone (fun _ => false) s r (fun vs s' => s'.newArray vs.toArray)
        calls o) ∧
    (∀ calls o, (Builtin.filter.run s [.array r, f]).Makes limits calls o ↔
      GoesThrough limits f alone (fun _ => false) s r
        (fun vs s' => s'.newArray (chosen xs vs).toArray) calls o) ∧
    (∀ calls o, (Builtin.forEach.run s [.array r, f]).Makes limits calls o ↔
      GoesThrough limits f alone (fun _ => false) s r (fun _ s' => (.boolean false, s'))
        calls o) ∧
    (∀ calls o, (Builtin.find.run s [.array r, f]).Makes limits calls o ↔
      GoesThrough limits f alone (· ≠ .boolean false) s r
        (fun vs s' => ((chosen xs vs).headD (.boolean false), s')) calls o) ∧
    (∀ acc calls o, (Builtin.reduce.run s [.array r, f, acc]).Makes limits calls o ↔
      GoesThrough limits f (folding acc) (fun _ => false) s r
        (fun vs s' => (vs.getLastD acc, s')) calls o) ∧
    ∀ request calls vs, Rounds f request (fun _ => false) none xs calls →
      Call.values calls = .ok vs → vs.length = xs.length := by
  obtain ⟨hmap, hfilter, hforEach, hfind, hreduce⟩ := Builtin.run_of_callable (s := s) (r := r) hf
  refine ⟨fun _ _ _ => returns_builtin_iff, fun calls o => ?_, fun calls o => ?_,
    fun calls o => ?_, fun calls o => ?_, fun acc calls o => ?_,
    fun _ _ _ hrounds => hrounds.length_values⟩
  · rw [hmap]
    refine (mapPass f).makes_iff_goesThrough [] fun s' vs hcalls hrounds hvs => ?_
    refine hcalls.items_newArray fun hempty => ?_
    have hlength := hrounds.length_values hvs
    simpa [hempty] using hlength
  · rw [hfilter]
    refine (filterPass f).makes_iff_goesThrough [] fun s' vs hcalls _ _ => ?_
    exact hcalls.items_newArray fun hempty => by simp [hempty, chosen]
  · rw [hforEach]
    exact (visitPass f).makes_iff_goesThrough () fun _ _ _ _ _ => rfl
  · rw [hfind]
    exact (findPass f).makes_iff_goesThrough () fun _ _ _ _ _ => rfl
  · rw [hreduce]
    exact (foldPass f acc).makes_iff_goesThrough () fun _ _ _ _ _ => rfl

/-- A function that takes the last element off the array it is called for is still called with both
elements. -/
theorem builtins_go_by_snapshot_pop :
    ∃ (s : Store) (o : Outcome) (calls : List Call),
      s.items 0 = #[.number 1, .number 2] ∧ (Value.closure 0).isCallable = true ∧
      Returns ⟨none, none⟩ (.builtin .forEach 0) [.array 0, .closure 0] s o ∧
      o.store.items 0 = #[] ∧
      GoesThrough ⟨none, none⟩ (.closure 0) alone (fun _ => false) s 0
        (fun _ s' => (.boolean false, s')) calls o := by
  obtain ⟨o₁, ho₁, hcheck⟩ := (Option.any_eq_true ..).mp (by decide +kernel :
    ((execute ⟨none, none⟩ 100 "do(define(a, array(1, 2)), define(f, fun(x, pop(a))))"
      (Store.initial (.fresh none) false).1 (Store.initial (.fresh none) false).2).any fun o₁ =>
        o₁.store.items 0 == #[.number 1, .number 2] &&
          (applyValue ⟨none, none⟩ 100 (.builtin .forEach 0) [.array 0, .closure 0] o₁.store).any
            fun o => o.store.items 0 == #[]) = true)
  simp only [Bool.and_eq_true, beq_iff_eq] at hcheck
  obtain ⟨hitems, hcheck⟩ := hcheck
  obtain ⟨o, ho, hempty⟩ := (Option.any_eq_true ..).mp hcheck
  have hlaws := builtins_go_by_snapshot ⟨none, none⟩ 0 o₁.store 0 (.closure 0) rfl
  have hreturns : Returns ⟨none, none⟩ (.builtin .forEach 0) [.array 0, .closure 0] o₁.store o :=
    ⟨100, ho⟩
  obtain ⟨calls, hcalls⟩ := (hlaws.1 ..).mp hreturns
  exact ⟨o₁.store, o, calls, hitems, rfl, hreturns, by simpa using hempty,
    (hlaws.2.2.2.1 ..).mp hcalls⟩

end TinyScript
