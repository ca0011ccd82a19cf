import TinyScript.Proofs.Runs

/-!
# Sorting by sorting

The first question of a sort is about the first two elements. If the comparator is the sort builtin
itself, the question is a sort of the second element by the first one; if that one is the sort
builtin too, the question is of the same kind again. Nothing is evaluated on the way, so nothing is
counted. Where such a chain of arrays does not end, as in an array that begins with the sort builtin
and with itself, the run does not end either.
-/

namespace TinyScript

namespace Store

/-- The array that a sort by sorting sorts by sorting again to answer its first question. -/
def nestedSort? (s : Store) (r : ArrayRef) : Option ArrayRef :=
  match (s.items r).toList with
  | .builtin .sort _ :: .array inner :: _ => some inner
  | _ => none

/-- The array that is so many sorts deep inside a sort by sorting. -/
def sortChain (s : Store) : Nat → ArrayRef → Option ArrayRef
  | 0, r => some r
  | n + 1, r => (s.nestedSort? r).bind (s.sortChain n)

/-- Sorting an array by sorting nests without end. -/
def Endless (s : Store) (r : ArrayRef) : Prop := ∀ n, (s.sortChain n r).isSome = true

variable {s : Store} {r : ArrayRef}

/-- A sort nests exactly where its array begins with the sort builtin and with an array. -/
theorem eq_of_nestedSort? {inner : ArrayRef} (h : s.nestedSort? r = some inner) :
    ∃ home rest, (s.items r).toList = .builtin .sort home :: .array inner :: rest := by
  unfold nestedSort? at h
  split at h
  · rename_i home found rest hitems
    obtain rfl := Option.some.inj h
    exact ⟨home, rest, hitems⟩
  · exact nomatch h

/-- An endless sort goes on with an endless sort. -/
theorem Endless.nested (h : s.Endless r) :
    ∃ inner, s.nestedSort? r = some inner ∧ s.Endless inner := by
  have hone := h 1
  rw [sortChain] at hone
  obtain ⟨inner, hinner⟩ : ∃ inner, s.nestedSort? r = some inner := by
    cases hnested : s.nestedSort? r with
    | none =>
      rw [hnested] at hone
      exact nomatch hone
    | some inner => exact ⟨inner, rfl⟩
  refine ⟨inner, hinner, fun n => ?_⟩
  have hnext := h (n + 1)
  rwa [sortChain, hinner] at hnext

/-- An array that its own sort sorts again is sorted without end. -/
theorem endless_of_nestedSort?_eq (h : s.nestedSort? r = some r) : s.Endless r := by
  intro n
  induction n with
  | zero => rfl
  | succ n ih =>
    rw [sortChain, h]
    exact ih

end Store

/-- A sort with a comparator sorts an array by something callable, or fails at once. -/
theorem Builtin.run_sort_pair (s : Store) (x y : Value) :
    (∃ r, x = .array r ∧ y.isCallable = true ∧
      Builtin.sort.run s [x, y] = Reply.sort s y (Sorting.sort (s.items r).toList)) ∨
      ∃ cause, Builtin.sort.run s [x, y] = .failure cause s := by
  cases x with
  | array r =>
    cases y with
    | closure _ | builtin _ _ | classRef _ => exact .inl ⟨r, rfl, rfl, rfl⟩
    | _ => exact .inr ⟨_, rfl⟩
  | _ => exact .inr ⟨_, rfl⟩

namespace Machine

/-- An array is about to be sorted by sorting, and that nests without end. -/
def SortsEndlessly : Machine → Prop
  | calling (.builtin .sort _) [.array r, .builtin .sort _] _ s => s.Endless r
  | _ => False

/-- An array is about to be sorted by sorting, and begins with the sort builtin and with itself. -/
def sortsItself : Machine → Bool
  | calling (.builtin .sort _) [.array r, .builtin .sort _] _ s => s.nestedSort? r == some r
  | _ => false

variable {limits : Limits} {m : Machine}

/-- Sorting an array by sorting that begins with the sort builtin and with itself nests without
end. -/
theorem sortsEndlessly_of_sortsItself (h : m.sortsItself = true) : m.SortsEndlessly := by
  unfold sortsItself at h
  split at h
  · exact Store.endless_of_nestedSort?_eq (beq_iff_eq.mp h)
  · cases h

/-- A state that sorts endlessly leads to another one. -/
theorem SortsEndlessly.step (h : m.SortsEndlessly) :
    ∃ m', step limits m = .inl m' ∧ m'.SortsEndlessly := by
  unfold SortsEndlessly at h
  split at h
  · rename_i home r inner stack s
    obtain ⟨r', hnested, hendless⟩ := h.nested
    obtain ⟨home', rest, hitems⟩ := Store.eq_of_nestedSort? hnested
    obtain ⟨next, hask⟩ := Sorting.sort_eq_ask (.builtin .sort home') (.array r') rest
    refine ⟨calling (.builtin .sort inner) [.array r', .builtin .sort home']
      (.builtin (.sorting (.builtin .sort inner) next) :: stack) s, ?_, hendless⟩
    have hrun : Builtin.sort.run s [.array r, .builtin .sort inner] =
        Reply.sort s (.builtin .sort inner) (Sorting.sort (s.items r).toList) := rfl
    rw [Machine.step, call, hrun, hitems, hask]
    rfl
  · exact h.elim

/-- A run that comes to an endless sort does not end. -/
theorem SortsEndlessly.not_ends (h : m.SortsEndlessly) : ¬ Ends limits m := by
  rintro ⟨fuel, outcome, hrun⟩
  induction fuel generalizing m with
  | zero => exact nomatch hrun
  | succ fuel ih =>
    obtain ⟨m', hstep, hm'⟩ := @SortsEndlessly.step limits m h
    rw [run, hstep] at hrun
    exact ih hm' hrun

end Machine

end TinyScript
