import TinyScript.Proofs.CallChains

/-!
# Runs with a step budget

With a step budget, the run of a program ends if and only if it never comes to sorting an array by
sorting where that nests without end. One direction is an induction on what is left of the budget:
if all evaluations end that start later, then calls come back, so every stack is worked off. The
other one is that such a sort never ends.
-/

namespace TinyScript

/-- A waiting builtin makes finitely many further calls. -/
theorem Pending.bounded_resume (pending : Pending) (s : Store) (v : Value) :
    (pending.resume s v).Bounded (fun _ _ => True) fun _ => True := by
  cases pending with
  | mapping => exact Reply.bounded_map (fun _ => trivial) ..
  | filtering => exact Reply.bounded_filter (fun _ => trivial) ..
  | visiting => exact Reply.bounded_visit (fun _ => trivial) ..
  | finding =>
    rw [resume]
    split
    · exact .value trivial _
    · exact Reply.bounded_find (fun _ => trivial) ..
  | folding => exact Reply.bounded_fold (fun _ _ => trivial) ..
  | sorting =>
    rw [resume]
    split
    · exact .failure _ _
    · exact (Reply.bounded_sort (fun _ _ => trivial) ..).mono fun _ _ => trivial

namespace Machine

variable {limits : Limits} {t : Nat} {m : Machine} {stack : List Frame}

section Frames

variable (heval : EvaluationsEnd limits t)
include heval

/-- Collecting arguments settles: the next one is evaluated, or there is a call. -/
theorem settles_operands {f : Value} {op : Expr} {done : List Value} {rest : List Expr}
    {scope : ScopeRef} {s : Store} (htame : Tame limits t (operands f op done rest scope stack s)) :
    Settles limits (fun _ => True) (operands f op done rest scope stack s) stack := by
  cases rest with
  | cons e rest => exact .inl (heval _ _ _ _ htame)
  | nil =>
    revert htame
    simp only [operands, enter]
    split
    · intro htame
      refine (callsSettle heval _ _ _ _ trivial htame).bind fun v s' _ _ => ?_
      exact settles_giving trivial _
    · exact callsSettle heval _ _ _ _ trivial

/-- The next member of a class is evaluated, or the class is made. -/
theorem settles_nextMember {maker : Value} {methods : Methods} {plan : ClassPlan} {s : Store}
    (htame : Tame limits t (nextMember maker methods plan stack s)) :
    Settles limits (fun _ => True) (nextMember maker methods plan stack s) stack := by
  revert htame
  unfold nextMember
  split
  · exact fun _ => settles_giving trivial _
  · exact fun htame => .inl (heval _ _ _ _ htame)

/-- A frame that gets a value settles. -/
theorem settles_resume {v : Value} {frame : Frame} {s : Store}
    (htame : Tame limits t (resume v frame stack s)) :
    Settles limits (fun _ => True) (resume v frame stack s) stack := by
  revert htame
  cases frame with
  | application | traced | define | construct => exact fun _ => settles_giving trivial _
  | operator =>
    simp only [resume]
    split
    · exact settles_operands heval
    · exact fun _ => settles_raising _ s
  | operand => exact settles_operands heval
  | branch | loopBody => exact fun htame => .inl (heval _ _ _ _ htame)
  | loopTest =>
    simp only [resume]
    split
    · exact fun htame => .inl (heval _ _ _ _ htame)
    · exact fun _ => settles_giving trivial s
  | sequence rest =>
    cases rest with
    | nil => exact fun _ => settles_giving trivial s
    | cons e rest => exact fun htame => .inl (heval _ _ _ _ htame)
  | assign =>
    simp only [resume]
    split
    · exact fun _ => settles_giving trivial _
    · exact fun _ => settles_raising _ s
  | methodName =>
    simp only [resume]
    split
    · exact fun htame => .inl (heval _ _ _ _ htame)
    · exact fun _ => settles_raising _ s
  | classMaker | methodFunction =>
    simp only [resume]
    split
    · exact settles_nextMember heval
    · exact fun _ => settles_raising _ s
  | builtin pending => exact settles_reply (callsSettle heval) (pending.bounded_resume s v)

/-- A value is handed from frame to frame, up to the end of the run. -/
theorem ends_giving {v : Value} {s : Store} (htame : Tame limits t (giving v stack s)) :
    Ends limits (giving v stack s) := by
  induction stack generalizing v s with
  | nil => exact ends_giving_nil v s
  | cons frame stack ih =>
    have hresume := reaches_resume limits v frame stack s
    rw [hresume.ends_iff]
    refine (settles_resume heval (htame.reaches hresume)).ends fun v' s' hreaches => ?_
    exact ih (htame.reaches (hresume.trans hreaches))

/-- If all evaluations end, everything does. -/
theorem Tame.ends (htame : Tame limits t m) : Ends limits m := by
  cases m with
  | evaluating e scope stack s => exact heval e scope stack s htame
  | calling f args stack s =>
    refine (callsSettle heval f args stack s trivial htame).ends fun v s' hreaches => ?_
    exact ends_giving heval (htame.reaches hreaches)
  | giving v stack s => exact ends_giving heval htame
  | raising fault stack s => exact ends_raising fault stack s

end Frames

/-- Evaluations end when the budget is used up, and before that if those end that start later. -/
theorem evaluationsEnd {most : Nat} (hlimits : limits.steps = some most) (t : Nat) :
    EvaluationsEnd limits t := by
  suffices h : ∀ left t, most < t + left → EvaluationsEnd limits t from
    h (most + 1) t (Nat.le_add_left _ _)
  intro left
  induction left with
  | zero =>
    intro t hleft e scope stack s htame
    rw [ends_iff_of_step rfl, eval, if_pos]
    · exact ends_raising _ _ _
    · have hsteps : t ≤ s.steps := htame.steps
      simp only [hlimits, beyond, decide_eq_true_eq]
      omega
  | succ left ih =>
    intro t hleft e scope stack s htame
    rw [ends_iff_of_step rfl]
    have hnext : Tame limits t (eval limits e scope stack s) :=
      htame.reaches (reaches_of_step rfl)
    refine Tame.ends (ih (t + 1) (by omega)) ⟨hnext.wellFormed, ?_, hnext.calm⟩
    rw [steps_eval]
    exact Nat.succ_le_succ htame.steps

end Machine

/-- A program whose evaluation comes to an endless sort has no outcome. -/
theorem execute_eq_none_of_sortsEndlessly {limits : Limits} {src : Text} {scope : ScopeRef}
    {s : Store} {e : Expr} (hparse : parse src = .ok e) {m : Machine}
    (hreaches : Machine.Reaches limits (.evaluating e scope [] { s with steps := 0 }) m)
    (hm : m.SortsEndlessly) (fuel : Nat) : execute limits fuel src scope s = none := by
  have hends := mt hreaches.ends_iff.mp hm.not_ends
  cases hexecute : execute limits fuel src scope s with
  | none => rfl
  | some outcome =>
    rw [execute, hparse] at hexecute
    exact absurd ⟨fuel, outcome, hexecute⟩ hends

/-- With a step budget, whatever the nesting bound is, a program ends if and only if no array is
sorted by sorting on the way where that nests without end. -/
theorem execute_ends_iff {s : Store} (hs : s.Reachable) {maxSteps : Int} (hsteps : 0 < maxSteps)
    (maxDepth : Int) (src : Text) (scope : ScopeRef) :
    (∃ fuel outcome,
      execute (Limits.ofInts maxSteps maxDepth) fuel src scope s = some outcome) ↔
      ∀ e m, parse src = .ok e →
        Machine.Reaches (Limits.ofInts maxSteps maxDepth)
          (.evaluating e scope [] { s with steps := 0 }) m →
        ¬ m.SortsEndlessly := by
  constructor
  · rintro ⟨fuel, outcome, hexecute⟩ e m hparse hreaches hm
    rw [execute_eq_none_of_sortsEndlessly hparse hreaches hm fuel] at hexecute
    exact nomatch hexecute
  · intro hcalm
    cases hparse : parse src with
    | error fault => exact ⟨0, ⟨.error fault, s⟩, by rw [execute, hparse]⟩
    | ok e =>
      have hlimits : (Limits.ofInts maxSteps maxDepth).steps = some maxSteps.toNat :=
        if_pos hsteps
      have hstart : Machine.Tame (Limits.ofInts maxSteps maxDepth) 0
          (.evaluating e scope [] { s with steps := 0 }) :=
        ⟨Machine.wellFormed_evaluating (hs.wellFormed.counters 0 s.depth) (List.forall_mem_nil _) e
          scope, Nat.zero_le _, fun m => hcalm e m hparse⟩
      obtain ⟨fuel, outcome, hrun⟩ := hstart.ends (Machine.evaluationsEnd hlimits 0)
      exact ⟨fuel, outcome, by rw [execute, hparse]; exact hrun⟩

/-- An array that begins with the sort builtin and with a sorted array is sorted by sorting; the run
ends, and so comes to no endless sort. -/
theorem execute_ends_iff_nested :
    (Store.initial (.fresh none) false).2.Reachable ∧ (0 : Int) < 100 ∧
      ∀ e m, parse "sort(array(sort, array(1, 2)), sort)" = .ok e →
        Machine.Reaches (Limits.ofInts 100 0)
          (.evaluating e (Store.initial (.fresh none) false).1 []
            { (Store.initial (.fresh none) false).2 with steps := 0 }) m →
        ¬ m.SortsEndlessly := by
  have hs := Store.reachable_initial (.fresh none) false
  refine ⟨hs, by decide, (execute_ends_iff hs (by decide) 0 _ _).mp ⟨100, ?_⟩⟩
  exact Option.isSome_iff_exists.mp (by decide +kernel)

/-- A program that fills an array with the sort builtin and with the array itself, and sorts it by
sorting, has no outcome however long it runs, although its budget is a hundred steps. The sort is
called after 29 steps, with 13 evaluations counted. -/
theorem execute_self_sort_eq_none :
    (Store.initial (.fresh none) false).2.Reachable ∧ (0 : Int) < 100 ∧
      ∀ fuel, execute (Limits.ofInts 100 0) fuel
        "do(define(a, array(sort)), push(a, a), sort(a, sort))"
        (Store.initial (.fresh none) false).1 (Store.initial (.fresh none) false).2 = none := by
  refine ⟨Store.reachable_initial _ _, by decide, fun fuel => ?_⟩
  have hsorts : ((parse "do(define(a, array(sort)), push(a, a), sort(a, sort))").toOption.any
      fun e => (Machine.after (Limits.ofInts 100 0) 29
        (.evaluating e (Store.initial (.fresh none) false).1 []
          { (Store.initial (.fresh none) false).2 with steps := 0 })).sortsItself) = true := by
    decide +kernel
  cases hparse : parse "do(define(a, array(sort)), push(a, a), sort(a, sort))" with
  | error fault =>
    rw [hparse] at hsorts
    exact nomatch hsorts
  | ok e =>
    rw [hparse] at hsorts
    exact execute_eq_none_of_sortsEndlessly hparse (Machine.reaches_after _ 29 _)
      (Machine.sortsEndlessly_of_sortsItself hsorts) fuel

end TinyScript
