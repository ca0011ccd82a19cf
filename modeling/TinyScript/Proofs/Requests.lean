import TinyScript.Proofs.Leftovers

/-!
# What hosts ask for

A host runs programs and calls values on one evaluator, in any order, whether they succeed or not.
Whatever comes of a request, the nesting depth is afterwards what it was before, so every program
starts with full budgets. The depth counts the applications that are under way, and no more
evaluations are under way at once than the nesting bound says.
-/

namespace TinyScript

/-- What a host asks an evaluator for: to run a program in a scope, or to call a value. -/
inductive Request where
  | run (src : Text) (scope : ScopeRef)
  | apply (f : Value) (args : List Value)

namespace Request

/-- What comes of a request. -/
def perform (limits : Limits) (fuel : Nat) (s : Store) : Request → Option Outcome
  | run src scope => execute limits fuel src scope s
  | apply f args => applyValue limits fuel f args s

/-- The state that the machine starts with on a request; none if there is no program to be read. -/
def first? (s : Store) : Request → Option Machine
  | run src scope =>
    match parse src with
    | .ok e => some (.evaluating e scope [] { s with steps := 0 })
    | .error _ => none
  | apply f args => some (.calling f args [] s)

variable {limits : Limits} {fuel : Nat} {s : Store} {request : Request} {o : Outcome}

/-- A request is a run of the machine, or a program that cannot be read. -/
theorem perform_eq_some (h : request.perform limits fuel s = some o) :
    (∃ m, request.first? s = some m ∧ Machine.run limits fuel m = some o) ∨
      request.first? s = none ∧ o.store = s ∧
        ∃ src scope fault, request = .run src scope ∧ parse src = .error fault ∧
          o.result = .error fault := by
  cases request with
  | apply f args => exact .inl ⟨_, rfl, h⟩
  | run src scope =>
    simp only [perform, execute] at h
    simp only [first?]
    cases hparse : parse src with
    | ok e =>
      rw [hparse] at h
      exact .inl ⟨_, rfl, h⟩
    | error fault =>
      rw [hparse] at h
      obtain rfl := Option.some.inj h
      exact .inr ⟨rfl, rfl, src, scope, fault, rfl, hparse, rfl⟩

/-- A request starts with the program that was read, or with the call. -/
theorem first?_eq_some {m : Machine} (h : request.first? s = some m) :
    (∃ src scope e, request = .run src scope ∧ parse src = .ok e ∧
      m = .evaluating e scope [] { s with steps := 0 }) ∨
      ∃ f args, request = .apply f args ∧ m = .calling f args [] s := by
  cases request with
  | apply f args => exact .inr ⟨f, args, rfl, (Option.some.inj h).symm⟩
  | run src scope =>
    simp only [first?] at h
    cases hparse : parse src with
    | error fault =>
      rw [hparse] at h
      cases h
    | ok e =>
      rw [hparse] at h
      exact .inl ⟨src, scope, e, rfl, hparse, (Option.some.inj h).symm⟩

/-- No application is under way where a request starts. -/
theorem balanced_of_first? {m : Machine} (h : request.first? s = some m) :
    m.Balanced s.depth s.events.isSome ∧ m.applications = 0 := by
  rcases first?_eq_some h with ⟨src, scope, e, -, -, rfl⟩ | ⟨f, args, -, rfl⟩
  · exact ⟨⟨rfl, rfl⟩, rfl⟩
  · exact ⟨⟨rfl, rfl⟩, rfl⟩

/-- On the way through a request the depth counts the applications that are under way. -/
theorem balanced_of_reaches {m m' : Machine} (h : request.first? s = some m)
    (hm : Machine.Reaches limits m m') : m'.Balanced s.depth s.events.isSome :=
  hm.invariant (I := Machine.Balanced s.depth s.events.isSome) (balanced_of_first? h).1
    fun _ _ => Machine.Next.balanced

/-- A request leaves the depth as it was. -/
theorem depth_of_perform (h : request.perform limits fuel s = some o) :
    o.store.depth = s.depth := by
  rcases perform_eq_some h with ⟨m, hm, hrun⟩ | ⟨-, hstore, -⟩
  · exact ((balanced_of_first? hm).1.of_run hrun).1
  · rw [hstore]

end Request

/-- The stores that requests lead to, one after the other. Between requests the host may put another
output in place. -/
inductive Store.Serves (s : Store) : List Request → Store → Prop where
  | start : Serves s [] s
  | perform {requests : List Request} {s' : Store} {limits : Limits} {fuel : Nat}
      {request : Request} {o : Outcome} (h : Serves s requests s')
      (ho : request.perform limits fuel s' = some o) : Serves s (requests ++ [request]) o.store
  | redirect {requests : List Request} {s' : Store} (h : Serves s requests s') (output : Output) :
      Serves s requests { s' with output := output }

section Serves

variable {s s' : Store} {requests : List Request}

/-- A program that is run is one more request. -/
theorem Store.Serves.execute (h : s.Serves requests s') {limits : Limits} {fuel : Nat} {src : Text}
    {scope : ScopeRef} {o : Outcome} (ho : TinyScript.execute limits fuel src scope s' = some o) :
    s.Serves (requests ++ [.run src scope]) o.store :=
  h.perform (show Request.perform limits fuel s' (.run src scope) = some o from ho)

/-- Requests leave the nesting depth as it was. -/
theorem Store.Serves.depth (h : s.Serves requests s') : s'.depth = s.depth := by
  induction h with
  | start => rfl
  | perform _ ho ih => exact (Request.depth_of_perform ho).trans ih
  | redirect _ _ ih => exact ih

end Serves

namespace Machine

variable {limits : Limits} {m m' : Machine} {base most : Nat}

/-- Whether the limits let the evaluation begin that comes next. -/
def admits (limits : Limits) (s : Store) : Bool :=
  !beyond limits.steps (s.steps + 1) && !beyond limits.depth (s.depth + 1)

/-- The number of evaluations under way: those of the applications around, and the one that begins,
unless the limits stop it. -/
def active (limits : Limits) : Machine → Nat
  | evaluating _ _ stack s =>
    stack.countP Frame.isApplication + if admits limits s then 1 else 0
  | m => m.applications

/-- An evaluation that the limits admit is counted and starts. -/
theorem eval_of_admits {s : Store} (h : admits limits s = true) (e : Expr)
    (scope : ScopeRef) (stack : List Frame) :
    eval limits e scope stack s = start e scope stack { s with steps := s.steps + 1 } := by
  simp only [admits, Bool.and_eq_true, Bool.not_eq_true'] at h
  simp [eval, h.1, h.2]

/-- An evaluation that the limits stop is a fault at its place. -/
theorem eval_of_not_admits {s : Store} (h : admits limits s = false) (e : Expr) (scope : ScopeRef)
    (stack : List Frame) :
    ∃ cause, eval limits e scope stack s =
      failAt cause e.pos stack { s with steps := s.steps + 1 } := by
  simp only [eval]
  split
  · exact ⟨_, rfl⟩
  · split
    · exact ⟨_, rfl⟩
    · simp_all [admits]

/-- Where an evaluation may begin, the depth is below the bound. -/
theorem depth_lt_of_admits {s : Store} (hlimits : limits.depth = some most)
    (h : admits limits s = true) : s.depth < most := by
  simp only [admits, hlimits, beyond, Bool.and_eq_true, Bool.not_eq_true',
    decide_eq_false_iff_not] at h
  omega

/-- A step begins at most one application, and only an evaluation begins one. -/
theorem Next.applications_le (h : Next limits m m') :
    m'.applications ≤ m.applications + (if m.expr?.isSome then 1 else 0) := by
  have hpop (frame : Frame) (stack : List Frame) :
      stack.countP Frame.isApplication ≤ (frame :: stack).countP Frame.isApplication :=
    (List.sublist_cons_self frame stack).countP_le
  cases h with
  | @form form p _ _ stack _ _ _ hopens =>
    have happlications := countP_application (.word form.label p) stack
    cases hopens <;> exact Nat.le_of_eq happlications
  | @operator op => exact Nat.le_of_eq (countP_application op _)
  | nothing | function | malformed => exact Nat.le_of_eq (countP_application ..)
  | builtin | resume =>
    rw [applications_reply]
    exact Nat.le_refl _
  | operand hcollects | call hcollects | tracedCall hcollects =>
    cases hcollects <;> exact Nat.le_refl _
  | goOn hcontinues => cases hcontinues <;> exact Nat.le_refl _
  | member hlearns => cases hlearns <;> exact Nat.le_refl _
  | leave | traced | give | define | assign | madeClass | rejected | locate | tracedFault | pass =>
    exact Nat.le_add_right_of_le (hpop _ _)
  | _ => exact Nat.le_add_right _ _

/-- An application begins only below the nesting bound. -/
theorem applications_of_step (hlimits : limits.depth = some most) (h : step limits m = .inl m') :
    m'.applications ≤ m.applications ∨
      m'.applications = m.applications + 1 ∧ m.store.depth < most := by
  have hle := (next_of_step h).applications_le
  cases m with
  | evaluating e scope stack s =>
    cases hadmits : admits limits s with
    | true =>
      have hdepth := depth_lt_of_admits hlimits hadmits
      simp only [expr?, Option.isSome_some, if_true] at hle
      simp only [store]
      omega
    | false =>
      obtain ⟨cause, heval⟩ := eval_of_not_admits hadmits e scope stack
      obtain rfl := Sum.inl.inj h
      rw [heval]
      exact .inl (Nat.le_refl _)
  | _ => exact .inl hle

/-- If no application is under way at first, then only so many come to be under way at once as the
nesting bound leaves. -/
theorem Reaches.applications_le {recorded : Bool} (hlimits : limits.depth = some most)
    (hm : m.Balanced base recorded) (hnone : m.applications = 0) (h : Reaches limits m m') :
    m'.applications = 0 ∨ base + m'.applications ≤ most := by
  induction h with
  | refl => exact .inl hnone
  | tail hreaches hstep ih =>
    have hdepth := (Reaches.invariant (I := Balanced base recorded) hreaches hm
      fun _ _ => Next.balanced).depth
    rcases applications_of_step hlimits hstep with hle | ⟨heq, hlt⟩ <;> omega

/-- No more evaluations are under way at once than the nesting bound leaves. -/
theorem Reaches.active_le {recorded : Bool} (hlimits : limits.depth = some most)
    (hm : m.Balanced base recorded) (hnone : m.applications = 0) (h : Reaches limits m m') :
    m'.active limits = 0 ∨ base + m'.active limits ≤ most := by
  have happlications := h.applications_le hlimits hm hnone
  have hdepth := (h.invariant (I := Balanced base recorded) hm fun _ _ => Next.balanced).depth
  cases m' with
  | evaluating e scope stack s =>
    simp only [active, applications, store, Machine.stack] at happlications hdepth ⊢
    cases hadmits : admits limits s with
    | true =>
      have hlt := depth_lt_of_admits hlimits hadmits
      simp only [if_true]
      omega
    | false => simpa using happlications
  | _ => exact happlications

end Machine

/-- A program that is read runs as it would with both counters at zero, if the depth is zero. -/
theorem execute_of_depth {s : Store} (hdepth : s.depth = 0) {src : Text} {e : Expr}
    (hparse : parse src = .ok e) (limits : Limits) (fuel : Nat) (scope : ScopeRef) :
    execute limits fuel src scope s =
      execute limits fuel src scope { s with steps := 0, depth := 0 } := by
  simp only [execute, hparse, ← hdepth]

/-- Every request leaves the depth as it was. So on an evaluator that was new the depth is zero
between requests. While a request is performed the depth counts the applications under way, and
there are never more evaluations under way than the nesting bound says. Every program runs as it
would with both counters at zero: it comes to the same and leaves the same store, in which a program
that cannot be read changes nothing. -/
theorem serves_clean {s s' : Store} {requests : List Request} (hs : s.depth = 0)
    (h : s.Serves requests s') :
    s'.depth = 0 ∧
    (∀ limits fuel (request : Request) (before : Store) o,
      request.perform limits fuel before = some o → o.store.depth = before.depth) ∧
    (∀ limits (request : Request) m m', request.first? s' = some m → Machine.Reaches limits m m' →
      m'.store.depth = m'.applications ∧
        ∀ most, limits.depth = some most → m'.active limits ≤ most) ∧
    ∀ limits fuel src scope,
      (∀ e, parse src = .ok e → execute limits fuel src scope s' =
        execute limits fuel src scope { s' with steps := 0, depth := 0 }) ∧
      ∀ fault, parse src = .error fault →
        execute limits fuel src scope s' = some ⟨.error fault, s'⟩ ∧
          execute limits fuel src scope { s' with steps := 0, depth := 0 } =
            some ⟨.error fault, { s' with steps := 0, depth := 0 }⟩ := by
  have hdepth : s'.depth = 0 := h.depth.trans hs
  refine ⟨hdepth, ?_, ?_, ?_⟩
  · intro limits fuel request before o ho
    exact Request.depth_of_perform ho
  · intro limits request m m' hm hreaches
    obtain ⟨hbalanced, hnone⟩ := Request.balanced_of_first? hm
    rw [hdepth] at hbalanced
    constructor
    · have hcount := (Request.balanced_of_reaches hm hreaches).depth
      omega
    · intro most hlimits
      have hactive := hreaches.active_le hlimits hbalanced hnone
      omega
  · intro limits fuel src scope
    constructor
    · intro e he
      exact execute_of_depth hdepth he limits fuel scope
    · intro fault hfault
      simp only [execute, hfault, and_self]

/-- A recursion that runs into the nesting bound, and then a text that cannot be read: the depth is
zero again, and the next program has the whole bound. -/
theorem serves_clean_recursion :
    ∃ s' : Store, (Store.initial (.fresh none) false).2.depth = 0 ∧
      (Store.initial (.fresh none) false).2.Serves
        [.run "define(f, fun(n, f(+(n, 1))))" (Store.initial (.fresh none) false).1,
          .run "f(0)" (Store.initial (.fresh none) false).1,
          .run "f(" (Store.initial (.fresh none) false).1] s' ∧
      s'.depth = 0 ∧
      ∀ e, parse "f(0)" = .ok e → ∀ m', Machine.Reaches ⟨none, some 5⟩
          (.evaluating e (Store.initial (.fresh none) false).1 [] { s' with steps := 0 }) m' →
        m'.active ⟨none, some 5⟩ ≤ 5 := by
  obtain ⟨o₁, ho₁, hcheck⟩ := (Option.any_eq_true ..).mp (by decide +kernel :
    ((execute ⟨none, some 5⟩ 20 "define(f, fun(n, f(+(n, 1))))"
      (Store.initial (.fresh none) false).1 (Store.initial (.fresh none) false).2).any fun o₁ =>
        (execute ⟨none, some 5⟩ 100 "f(0)" (Store.initial (.fresh none) false).1 o₁.store).any
          fun o₂ => !o₂.result.isOk && (execute ⟨none, some 5⟩ 1 "f("
            (Store.initial (.fresh none) false).1 o₂.store).any fun o₃ => !o₃.result.isOk) = true)
  obtain ⟨o₂, ho₂, hcheck⟩ := (Option.any_eq_true ..).mp hcheck
  simp only [Bool.and_eq_true] at hcheck
  obtain ⟨o₃, ho₃, -⟩ := (Option.any_eq_true ..).mp hcheck.2
  have hserves : (Store.initial (.fresh none) false).2.Serves _ o₃.store :=
    ((Store.Serves.start.execute ho₁).execute ho₂).execute ho₃
  obtain ⟨hdepth, -, hactive, -⟩ := serves_clean rfl hserves
  refine ⟨o₃.store, rfl, hserves, hdepth, ?_⟩
  intro e he m' hreaches
  have hfirst : Request.first? o₃.store (.run "f(0)" (Store.initial (.fresh none) false).1) =
      some (.evaluating e (Store.initial (.fresh none) false).1 []
        { o₃.store with steps := 0 }) := by
    simp only [Request.first?, he]
  exact (hactive _ _ _ m' hfirst hreaches).2 5 rfl

end TinyScript
