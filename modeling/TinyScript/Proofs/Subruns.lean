import TinyScript.Proofs.Runs
import TinyScript.Proofs.Views

/-!
# Runs above a stack

A step looks at the top of the stack only. So what is worked on above some frames runs as if they
were not there, and what it comes to is handed to the topmost of them. A call comes to the same
outcome wherever it is made.
-/

namespace TinyScript

namespace Machine

variable {limits : Limits} {m m' : Machine} {base : List Frame} {o : Outcome}

/-- A state with more frames below its stack. -/
def above (base : List Frame) : Machine → Machine
  | evaluating e scope stack s => evaluating e scope (stack ++ base) s
  | calling f args stack s => calling f args (stack ++ base) s
  | giving v stack s => giving v (stack ++ base) s
  | raising fault stack s => raising fault (stack ++ base) s

/-- The view of states with more frames below their stack. -/
def aboveView (base : List Frame) : View :=
  .keeping .plain (· ++ base) fun _ _ => rfl

/-- The view of a state above some frames is the state above them. -/
theorem machine_aboveView (m : Machine) : (aboveView base).machine m = m.above base := by
  cases m <;> rfl

/-- Frames further down do not change a step. -/
theorem step_above (h : step limits m = .inl m') :
    step limits (m.above base) = .inl (m'.above base) := by
  rw [← machine_aboveView, ← machine_aboveView]
  exact View.step_keeping _ _ _ h

/-- Where a run would end, the frames further down get the outcome. -/
theorem above_of_step (h : step limits m = .inr o) : m.above base = o.onto base := by
  obtain rfl := eq_onto_of_step h
  unfold Outcome.onto
  split <;> rfl

/-- The run from a state comes to an outcome. -/
def ComesTo (limits : Limits) (m : Machine) (o : Outcome) : Prop :=
  ∃ fuel, run limits fuel m = some o

/-- A state comes to what the next one comes to. -/
theorem comesTo_iff_of_step (h : step limits m = .inl m') :
    ComesTo limits m o ↔ ComesTo limits m' o := by
  constructor
  · rintro ⟨fuel, hrun⟩
    exact (reaches_of_step h).exists_run hrun
  · rintro ⟨fuel, hrun⟩
    refine ⟨fuel + 1, ?_⟩
    rw [run, h]
    exact hrun

/-- What a run comes to does not depend on where in the run it is looked at. -/
theorem Reaches.comesTo_iff (h : Reaches limits m m') :
    ComesTo limits m o ↔ ComesTo limits m' o := by
  induction h with
  | refl => exact Iff.rfl
  | tail _ hstep ih => exact ih.trans (comesTo_iff_of_step hstep)

/-- A state that ends comes to its outcome only. -/
theorem comesTo_iff_of_end {o' : Outcome} (h : step limits m = .inr o) :
    ComesTo limits m o' ↔ o' = o := by
  constructor
  · rintro ⟨fuel, hrun⟩
    cases fuel with
    | zero => cases hrun
    | succ fuel =>
      rw [run, h] at hrun
      exact (Option.some.inj hrun).symm
  · rintro rfl
    exact ⟨1, by rw [run, h]⟩

/-- What comes of a state when it is alone is handed to the frames below it. -/
theorem reaches_above {fuel : Nat} (h : run limits fuel m = some o) :
    Reaches limits (m.above base) (o.onto base) := by
  induction fuel generalizing m with
  | zero => cases h
  | succ fuel ih =>
    rw [run] at h
    cases hstep : step limits m with
    | inl m' =>
      rw [hstep] at h
      exact (reaches_of_step (step_above hstep)).trans (ih h)
    | inr o' =>
      rw [hstep] at h
      obtain rfl := Option.some.inj h
      rw [above_of_step hstep]
      exact .refl _

/-- A run above a stack hands the stack what the run alone comes to, and goes on from there with the
fuel that is left. -/
theorem exists_run_onto {fuel : Nat} (h : run limits fuel (m.above base) = some o) :
    ∃ o' fuel', ComesTo limits m o' ∧ fuel' ≤ fuel ∧ run limits fuel' (o'.onto base) = some o := by
  induction fuel generalizing m with
  | zero => cases h
  | succ fuel ih =>
    cases hstep : step limits m with
    | inl m' =>
      rw [run, step_above hstep] at h
      obtain ⟨o', fuel', hm', hle, hrun⟩ := ih h
      exact ⟨o', fuel', (comesTo_iff_of_step hstep).mpr hm', by omega, hrun⟩
    | inr o' =>
      rw [above_of_step hstep] at h
      exact ⟨o', fuel + 1, (comesTo_iff_of_end hstep).mpr rfl, Nat.le_refl _, h⟩

/-- A run above a stack is the run alone, and then what the stack makes of its outcome. -/
theorem comesTo_above_iff (m : Machine) (base : List Frame) :
    ComesTo limits (m.above base) o ↔
      ∃ o', ComesTo limits m o' ∧ ComesTo limits (o'.onto base) o := by
  constructor
  · rintro ⟨fuel, hrun⟩
    obtain ⟨o', fuel', ho', -, hrest⟩ := exists_run_onto hrun
    exact ⟨o', ho', fuel', hrest⟩
  · rintro ⟨o', ⟨fuel, hrun⟩, ho⟩
    exact (reaches_above hrun).comesTo_iff.mpr ho

end Machine

/-- A call with some arguments in a store comes to an outcome, a value or a fault. -/
def Returns (limits : Limits) (f : Value) (args : List Value) (s : Store) (o : Outcome) : Prop :=
  ∃ fuel, applyValue limits fuel f args s = some o

/-- What a call comes to is handed to the frames below it, whatever they are. -/
theorem Returns.reaches {limits : Limits} {f : Value} {args : List Value} {s : Store} {o : Outcome}
    (h : Returns limits f args s o) (stack : List Frame) :
    Machine.Reaches limits (.calling f args stack s) (o.onto stack) := by
  obtain ⟨fuel, hrun⟩ := h
  exact Machine.reaches_above hrun

end TinyScript
