import TinyScript.Proofs.Replies

/-!
# Larger limits

A run under larger limits makes the same steps as the run under smaller ones, up to the evaluation
that the smaller limits refuse. From there on the run under the smaller limits only hands a fault
from frame to frame: it prints nothing, starts nothing, and ends in the fault of the limit. So
limits show in nothing but this fault.
-/

namespace TinyScript

/-- Whatever is beyond the second limits is beyond the first ones. -/
structure Limits.Tighter (small large : Limits) : Prop where
  steps : ∀ count, Machine.beyond large.steps count = true → Machine.beyond small.steps count = true
  depth : ∀ count, Machine.beyond large.depth count = true → Machine.beyond small.depth count = true

/-- A count is beyond a bound exactly if the bound is above zero and the count is above it. -/
theorem Limits.beyond_bound (n : Int) (count : Nat) :
    Machine.beyond (bound n) count = true ↔ 0 < n ∧ n < count := by
  by_cases hn : 0 < n
  · simp only [bound, if_pos hn, Machine.beyond, decide_eq_true_eq]
    omega
  · simp [bound, Machine.beyond, hn]

/-- Limits as integers, where anything but a positive one means none. -/
theorem Limits.tighter_ofInts {maxSteps maxDepth maxSteps' maxDepth' : Int}
    (hsteps : maxSteps' ≤ 0 ∨ 0 < maxSteps ∧ maxSteps ≤ maxSteps')
    (hdepth : maxDepth' ≤ 0 ∨ 0 < maxDepth ∧ maxDepth ≤ maxDepth') :
    (ofInts maxSteps maxDepth).Tighter (ofInts maxSteps' maxDepth') := by
  constructor
  · intro count
    simp only [ofInts, beyond_bound]
    omega
  · intro count
    simp only [ofInts, beyond_bound]
    omega

/-- The outcome is the fault of a limit. -/
def Outcome.ExceedsLimit (o : Outcome) : Prop :=
  ∃ fault, o.result = .error fault ∧ fault.cause.IsLimit

namespace Machine

variable {limits small large : Limits} {m m' : Machine}

/-- A fault is raised. -/
def IsRaising : Machine → Prop
  | raising _ _ _ => True
  | _ => False

/-- A fault with a cause is raised, with a given output. -/
def Raises (cause : Cause) (output : Output) : Machine → Prop
  | raising fault _ s => fault.cause = cause ∧ s.output = output
  | _ => False

/-- A state that raises a given fault raises a fault. -/
theorem Raises.isRaising {cause : Cause} {output : Output} (h : m.Raises cause output) :
    m.IsRaising := by
  cases m with
  | raising => trivial
  | _ => exact h

/-- The output is the given one when a given fault is raised. -/
theorem Raises.output_eq {cause : Cause} {output : Output} (h : m.Raises cause output) :
    m.store.output = output := by
  cases m with
  | raising => exact h.2
  | _ => exact h.elim

/-- A fault is only handed on, with its cause, and nothing is printed. -/
theorem Next.raises {cause : Cause} {output : Output} (h : Next limits m m')
    (hm : m.Raises cause output) : m'.Raises cause output := by
  cases h with
  | locate => exact ⟨(cause_located ..).trans hm.1, hm.2⟩
  | tracedFault => exact ⟨hm.1, (output_record ..).trans hm.2⟩
  | pass => exact hm
  | _ => exact hm.elim

/-- A fault that is raised is handed on with the same cause, and nothing is printed meanwhile. -/
theorem Reaches.raises {cause : Cause} {output : Output} (h : Reaches limits m m')
    (hm : m.Raises cause output) : m'.Raises cause output :=
  h.invariant hm fun _ _ => Next.raises

/-- Limits that allow the start of an evaluation allow it under larger limits too. -/
theorem eval_of_tighter (h : small.Tighter large) (e : Expr) (scope : ScopeRef)
    (stack : List Frame) (s : Store) :
    eval large e scope stack s = eval small e scope stack s ∨
      ∃ cause, cause.IsLimit ∧ (eval small e scope stack s).Raises cause s.output := by
  simp only [eval]
  by_cases hsteps : beyond small.steps (s.steps + 1) = true
  · rw [if_pos hsteps]
    exact .inr ⟨.stepBudget _, trivial, rfl, rfl⟩
  · have hsteps' : ¬ beyond large.steps (s.steps + 1) = true := mt (h.steps _) hsteps
    rw [if_neg hsteps, if_neg hsteps']
    by_cases hdepth : beyond small.depth (s.depth + 1) = true
    · rw [if_pos hdepth]
      exact .inr ⟨.nestingDepth _, trivial, rfl, rfl⟩
    · have hdepth' : ¬ beyond large.depth (s.depth + 1) = true := mt (h.depth _) hdepth
      rw [if_neg hdepth, if_neg hdepth']
      exact .inl rfl

/-- Runs under two limits make the same steps up to the one that the smaller limits refuse. -/
theorem step_of_tighter (h : small.Tighter large) (m : Machine) :
    step large m = step small m ∨
      ∃ m' cause, step small m = .inl m' ∧ cause.IsLimit ∧ m'.Raises cause m.store.output := by
  cases m with
  | evaluating e scope stack s =>
    rcases eval_of_tighter h e scope stack s with heq | ⟨cause, hcause, hraises⟩
    · exact .inl (congrArg Sum.inl heq)
    · exact .inr ⟨_, cause, rfl, hcause, hraises⟩
  | calling f args stack s => exact .inl rfl
  | giving v stack s => cases stack <;> exact .inl rfl
  | raising fault stack s => cases stack <;> exact .inl rfl

/-- A raised fault is the outcome in the end. -/
theorem Raises.outcome {cause : Cause} {output : Output} (hm : m.Raises cause output)
    (limits : Limits) :
    ∃ fuel o, run limits fuel m = some o ∧
      ∃ fault, o.result = .error fault ∧ fault.cause = cause := by
  obtain ⟨fuel, o, hrun⟩ : Ends limits m := by
    cases m with
    | raising fault stack s => exact ends_raising fault stack s
    | _ => exact hm.elim
  refine ⟨fuel, o, hrun, ?_⟩
  rcases exists_reaches_of_run hrun with ⟨v, hreaches, -⟩ | ⟨fault, hreaches, hresult⟩
  · exact (hreaches.raises hm).elim
  · exact ⟨fault, hresult, (hreaches.raises hm).1⟩

/-- If the run under the smaller limits does not end in the fault of a limit, the run under the
larger ones is the same. -/
theorem run_of_tighter (h : small.Tighter large)
    (hm : ∀ fuel o, run small fuel m = some o → ¬ o.ExceedsLimit) (fuel : Nat) :
    run large fuel m = run small fuel m := by
  induction fuel generalizing m with
  | zero => rfl
  | succ fuel ih =>
    rw [run, run]
    rcases step_of_tighter h m with heq | ⟨m', cause, hstep, hcause, hraises⟩
    · rw [heq]
      cases hstep : step small m with
      | inl m' =>
        refine ih fun fuel o ho => hm (fuel + 1) o ?_
        rw [run, hstep]
        exact ho
      | inr o => rfl
    · obtain ⟨fuel, o, hrun, fault, hresult, hfault⟩ := hraises.outcome small
      refine absurd ⟨fault, hresult, hfault ▸ hcause⟩ (hm (fuel + 1) o ?_)
      rw [run, hstep]
      exact hrun

/-- After as many steps, the run under the larger limits has printed at least as much. -/
theorem extends_output_after (h : small.Tighter large) (n : Nat) (m : Machine) :
    (after small n m).store.output.Extends (after large n m).store.output := by
  induction n generalizing m with
  | zero => exact .refl _
  | succ n ih =>
    rcases step_of_tighter h m with heq | ⟨m', cause, hstep, -, hraises⟩
    · rw [after, after, heq]
      split
      · exact ih _
      · exact .refl _
    · have hsmall : (after small (n + 1) m).store.output = m.store.output := by
        rw [after, hstep]
        exact ((reaches_after small n m').raises hraises).output_eq
      rw [hsmall]
      exact (reaches_after large (n + 1) m).extends_output

/-- More fuel changes no outcome. -/
theorem run_of_le {fuel fuel' : Nat} {o : Outcome} (h : run limits fuel m = some o)
    (hle : fuel ≤ fuel') : run limits fuel' m = some o := by
  induction fuel generalizing m fuel' with
  | zero => exact nomatch h
  | succ fuel ih =>
    obtain ⟨fuel', rfl⟩ : ∃ k, fuel' = k + 1 := ⟨fuel' - 1, by omega⟩
    rw [run] at h ⊢
    split at h
    · exact ih h (by omega)
    · exact h

/-- A run that has ended stays where it is. -/
theorem store_after_of_run {fuel n : Nat} {o : Outcome} (h : run limits fuel m = some o)
    (hn : fuel ≤ n) : (after limits n m).store = o.store := by
  induction fuel generalizing m n with
  | zero => cases h
  | succ fuel ih =>
    obtain ⟨n, rfl⟩ : ∃ k, n = k + 1 := ⟨n - 1, by omega⟩
    rw [run] at h
    rw [after]
    cases hstep : step limits m with
    | inl m' =>
      rw [hstep] at h
      exact ih h (by omega)
    | inr outcome =>
      rw [hstep] at h
      obtain rfl := Option.some.inj h
      cases m with
      | evaluating | calling => cases hstep
      | giving v stack s | raising fault stack s =>
        cases stack with
        | nil => exact congrArg Outcome.store (Sum.inr.inj hstep)
        | cons => cases hstep

/-- The state is the start of an evaluation that the step budget allows. -/
def passesBudget (limits : Limits) : Machine → Bool
  | evaluating _ _ _ s => !beyond limits.steps (s.steps + 1)
  | _ => false

/-- The state is the start of an evaluation that the step budget refuses. -/
def failsBudget (limits : Limits) : Machine → Bool
  | evaluating _ _ _ s => beyond limits.steps (s.steps + 1)
  | _ => false

/-- How many evaluations get past the step budget within so many steps. -/
def passed (limits : Limits) : Nat → Machine → Nat
  | 0, _ => 0
  | n + 1, m =>
    (m.passesBudget limits).toNat +
      match step limits m with
      | .inl m' => passed limits n m'
      | .inr _ => 0

/-- No more evaluations get past the budget than are left of it. -/
theorem passed_le {most : Nat} (hlimits : limits.steps = some most) (n : Nat) (m : Machine) :
    passed limits n m ≤ most - m.store.steps := by
  induction n generalizing m with
  | zero => exact Nat.zero_le _
  | succ n ih =>
    cases m with
    | evaluating e scope stack s =>
      have hrest := ih (eval limits e scope stack s)
      rw [steps_eval] at hrest
      simp only [passed, step, passesBudget, hlimits, beyond, store]
      by_cases hpasses : most < s.steps + 1
      · simp only [hpasses, decide_true, Bool.not_true, Bool.toNat_false]
        omega
      · simp only [hpasses, decide_false, Bool.not_false, Bool.toNat_true]
        omega
    | calling f args stack s =>
      have hrest := ih (call f args stack s)
      rw [steps_call] at hrest
      simpa [passed, step, passesBudget, store] using hrest
    | giving v stack s =>
      cases stack with
      | nil => simp [passed, step, passesBudget]
      | cons frame stack =>
        have hrest := ih (resume v frame stack s)
        rw [steps_resume] at hrest
        simpa [passed, step, passesBudget, store] using hrest
    | raising fault stack s =>
      cases stack with
      | nil => simp [passed, step, passesBudget]
      | cons frame stack =>
        have hrest := ih (unwind fault frame stack s)
        rw [steps_unwind] at hrest
        simpa [passed, step, passesBudget, store] using hrest

/-- Behind an evaluation that the budget refuses, or behind a fault, only a fault is handed on. -/
theorem Reaches.isRaising (h : Reaches limits m m')
    (hm : m.failsBudget limits = true ∨ m.IsRaising) : m' = m ∨ m'.IsRaising := by
  rcases hm with hfails | hraising
  · rcases Relation.ReflTransGen.cases_head h with rfl | ⟨m₁, hstep, hreaches⟩
    · exact .inl rfl
    · cases m with
      | evaluating e scope stack s =>
        obtain rfl := Sum.inl.inj hstep
        have hraises : (eval limits e scope stack s).Raises
            (.stepBudget (limits.steps.getD 0)) s.output := by
          have hbeyond : beyond limits.steps (s.steps + 1) = true := hfails
          simp only [eval, if_pos hbeyond]
          exact ⟨rfl, rfl⟩
        exact .inr (Reaches.raises hreaches hraises).isRaising
      | _ => cases hfails
  · cases m with
    | raising fault stack s => exact .inr (h.raises ⟨rfl, rfl⟩).isRaising
    | _ => exact hraising.elim

end Machine

/-- What has been printed when so many steps of a program are done, or when it has ended. -/
def printed (limits : Limits) (n : Nat) (src : Text) (scope : ScopeRef) (s : Store) : Text :=
  match parse src with
  | .error _ => s.output.text
  | .ok e =>
    (Machine.after limits n (.evaluating e scope [] { s with steps := 0 })).store.output.text

/-- What a program that has ended has printed. -/
theorem printed_of_execute {limits : Limits} {fuel n : Nat} {src : Text} {scope : ScopeRef}
    {s : Store} {o : Outcome} (h : execute limits fuel src scope s = some o) (hn : fuel ≤ n) :
    printed limits n src scope s = o.store.output.text := by
  unfold execute at h
  unfold printed
  cases hparse : parse src with
  | error fault =>
    rw [hparse] at h
    obtain rfl := Option.some.inj h
    rfl
  | ok e =>
    rw [hparse] at h
    exact congrArg (·.output.text) (Machine.store_after_of_run h hn)

/-- Whoever waits longer for the outcome of a program sees the same outcome. -/
theorem execute_of_le {limits : Limits} {fuel fuel' : Nat} {src : Text} {scope : ScopeRef}
    {s : Store} {o : Outcome} (h : execute limits fuel src scope s = some o)
    (hle : fuel ≤ fuel') : execute limits fuel' src scope s = some o := by
  unfold execute at h ⊢
  split at h
  · exact h
  · exact Machine.run_of_le h hle

/-- Of two limits for a program, the primed ones are larger, no limit being the largest. If the run
under the smaller ones does not end in the fault of a limit, the run under the larger ones is the
same, outcome and store. In any case it prints what the other prints and perhaps more. A step budget
is the most evaluations that get past it, and behind one that it refuses none is started. -/
theorem execute_of_larger_limits {maxSteps maxDepth maxSteps' maxDepth' : Int}
    (hsteps : maxSteps' ≤ 0 ∨ 0 < maxSteps ∧ maxSteps ≤ maxSteps')
    (hdepth : maxDepth' ≤ 0 ∨ 0 < maxDepth ∧ maxDepth ≤ maxDepth')
    (src : Text) (scope : ScopeRef) (s : Store) :
    let small := Limits.ofInts maxSteps maxDepth
    let large := Limits.ofInts maxSteps' maxDepth'
    ((∀ fuel o, execute small fuel src scope s = some o → ¬ o.ExceedsLimit) →
      ∀ fuel, execute large fuel src scope s = execute small fuel src scope s) ∧
    (∀ n, ∃ rest, printed large n src scope s = printed small n src scope s ++ rest) ∧
    (∀ fuel o o', execute small fuel src scope s = some o →
      execute large fuel src scope s = some o' →
      ∃ rest, o'.store.output.text = o.store.output.text ++ rest) ∧
    (0 < maxSteps →
      (∀ e n, parse src = .ok e →
        Machine.passed small n (.evaluating e scope [] { s with steps := 0 }) ≤ maxSteps.toNat) ∧
      ∀ m m', m.failsBudget small = true ∨ m.IsRaising → Machine.Reaches small m m' →
        m' = m ∨ m'.IsRaising) := by
  intro small large
  have htighter : small.Tighter large := Limits.tighter_ofInts hsteps hdepth
  have hprinted (n : Nat) :
      ∃ rest, printed large n src scope s = printed small n src scope s ++ rest := by
    unfold printed
    cases parse src with
    | error fault => exact ⟨Text.empty, (Text.append_empty _).symm⟩
    | ok e => exact (Machine.extends_output_after htighter n _).text
  refine ⟨?_, hprinted, ?_, ?_⟩
  · intro hends fuel
    unfold execute at hends ⊢
    cases hparse : parse src with
    | error fault => rfl
    | ok e =>
      simp only [hparse] at hends
      exact Machine.run_of_tighter htighter hends fuel
  · intro fuel o o' ho ho'
    rw [← printed_of_execute ho (Nat.le_refl _), ← printed_of_execute ho' (Nat.le_refl _)]
    exact hprinted fuel
  · intro hpositive
    have hlimits : small.steps = some maxSteps.toNat := if_pos hpositive
    exact ⟨fun e n _ => Machine.passed_le hlimits n _,
      fun m m' hm hreaches => hreaches.isRaising hm⟩

/-- A recursive function that prints on its way down: sixty evaluations and a depth of thirty are
enough, so that without a budget the outcome is the same one. It is known from 200 steps on, and it
is no fault. -/
theorem execute_of_larger_limits_recursion :
    ((0 : Int) ≤ 0 ∧ (0 : Int) < 30 ∧ (30 : Int) ≤ 40) ∧
      ∀ fuel, execute (Limits.ofInts 0 40) fuel
          "do(define(f, fun(n, if(<(n, 1), 0, do(print(n), f(-(n, 1)))))), f(2))"
          (Store.initial (.fresh none) false).1 (Store.initial (.fresh none) false).2 =
        execute (Limits.ofInts 60 30) fuel
          "do(define(f, fun(n, if(<(n, 1), 0, do(print(n), f(-(n, 1)))))), f(2))"
          (Store.initial (.fresh none) false).1 (Store.initial (.fresh none) false).2 := by
  refine ⟨by decide, (execute_of_larger_limits (.inl (by decide)) (.inr (by decide)) _ _ _).1 ?_⟩
  intro fuel o ho ⟨fault, hresult, _⟩
  have hknown : ((execute (Limits.ofInts 60 30) 200
      "do(define(f, fun(n, if(<(n, 1), 0, do(print(n), f(-(n, 1)))))), f(2))"
      (Store.initial (.fresh none) false).1 (Store.initial (.fresh none) false).2).any
        fun o => o.result.isOk) = true := by
    decide +kernel
  obtain ⟨o', ho', hok⟩ := (Option.any_eq_true ..).mp hknown
  obtain rfl : o = o' := Option.some.inj
    ((execute_of_le ho (Nat.le_max_left fuel 200)).symm.trans
      (execute_of_le ho' (Nat.le_max_right fuel 200)))
  rw [hresult] at hok
  exact nomatch hok

end TinyScript
