import TinyScript.Proofs.CallsBack
import TinyScript.Proofs.StableOrder

/-!
# Sorting with a comparator

A sort that is handed a comparator asks it about two elements at a time and goes by whether the
answers are below zero. The comparator may contradict itself, change what it is asked about, fail,
or give back what is no number. A sort that gives a value gives the elements that the array had at
the start, and it goes no further than the first comparison that does not give a number. If the
answers are those of a strict weak order, it gives the stable sorting by it.
-/

namespace TinyScript

variable {limits : Limits} {f : Value} {s s' : Store} {o : Outcome} {calls : List Call}
  {xs : List Value}

/-- What a call of a comparator comes to: a number, or the fault of the call, or that its result is
no number. -/
def Call.comparison (c : Call) : Except Fault Float :=
  match c.outcome.result with
  | .ok v => (v.toNumber "sort comparator").mapError .unplaced
  | .error fault => .error fault

/-- A call that compares two elements of a list. -/
def Call.Compares (f : Value) (xs : List Value) (c : Call) : Prop :=
  c.function = f ∧ ∃ x ∈ xs, ∃ y ∈ xs, c.args = [x, y]

/-- The second store is what comparisons of elements that gave numbers leave of the first. -/
def Compared (limits : Limits) (f : Value) (xs : List Value) (s s' : Store) : Prop :=
  ∃ calls, Consecutive limits s calls s' ∧
    ∀ c ∈ calls, c.Compares f xs ∧ ∃ x, c.comparison = .ok x

namespace Query

/-- The calls are those that ask a comparator the questions of a computation, up to the first one
that does not give a number, and lead to a result. -/
inductive Follows (f : Value) :
    Query Value (List Value) → List Call → Except Fault (List Value) → Prop where
  | done (ys : List Value) : Follows f (.done ys) [] (.ok ys)
  | faulty {x y : Value} (next : Bool → Query Value (List Value)) {o : Outcome} {fault : Fault}
      (h : Call.comparison ⟨f, [x, y], o⟩ = .error fault) :
      Follows f (.ask x y next) [⟨f, [x, y], o⟩] (.error fault)
  | answered {x y : Value} {next : Bool → Query Value (List Value)} {o : Outcome} {a : Float}
      {calls : List Call} {result : Except Fault (List Value)}
      (h : Call.comparison ⟨f, [x, y], o⟩ = .ok a) (hrest : Follows f (next (a < 0)) calls result) :
      Follows f (.ask x y next) (⟨f, [x, y], o⟩ :: calls) result

/-- What a sort comes to. -/
def outcome (s : Store) : Except Fault (List Value) → Outcome
  | .ok ys => .given (s.newArray ys.toArray)
  | .error fault => ⟨.error fault, s⟩

end Query

open Query Sorting

section Resume

variable {x y v : Value} {next : Bool → Query Value (List Value)}

/-- A sort that has got a number goes on with its sign. -/
theorem resume_sorting_of_ok {a : Float}
    (h : Call.comparison ⟨f, [x, y], ⟨.ok v, s⟩⟩ = .ok a) :
    (Pending.sorting f next).resume s v = Reply.sort s f (next (a < 0)) := by
  simp only [Call.comparison] at h
  cases hv : v.toNumber "sort comparator" with
  | error cause =>
    rw [hv] at h
    cases h
  | ok b =>
    rw [hv] at h
    obtain rfl := Except.ok.inj h
    simp only [Pending.resume, hv]

/-- A sort that has got something else fails. -/
theorem makes_resume_sorting_of_error {fault : Fault}
    (h : Call.comparison ⟨f, [x, y], ⟨.ok v, s⟩⟩ = .error fault) :
    ((Pending.sorting f next).resume s v).Makes limits calls o ↔
      calls = [] ∧ o = ⟨.error fault, s⟩ := by
  simp only [Call.comparison] at h
  cases hv : v.toNumber "sort comparator" with
  | error cause =>
    rw [hv] at h
    obtain rfl := Except.error.inj h
    simp only [Pending.resume, hv, Reply.makes_failure_iff]
  | ok b =>
    rw [hv] at h
    cases h

end Resume

/-- The calls of a sort and what comes of it, by induction on its questions. A sort ends early where
a call fails or gives a value that is no number. -/
theorem makes_sort_iff (q : Query Value (List Value)) :
    (Reply.sort s f q).Makes limits calls o ↔ ∃ s' result,
      Consecutive limits s calls s' ∧ q.Follows f calls result ∧ o = outcome s' result := by
  induction q generalizing s calls with
  | done ys =>
    refine Reply.makes_value_iff.trans ⟨?_, ?_⟩
    · rintro ⟨rfl, rfl⟩
      exact ⟨s, .ok ys, .nil s, .done ys, rfl⟩
    · rintro ⟨s', result, hcalls, hfollows, rfl⟩
      cases hfollows
      cases hcalls
      exact ⟨rfl, rfl⟩
  | ask x y next ih =>
    constructor
    · intro h
      cases h with
      | failed _ hcall => exact ⟨_, _, .cons hcall (.nil _), .faulty next rfl, rfl⟩
      | @answered _ _ _ _ s₁ v _ _ hcall hrest =>
        cases ha : Call.comparison ⟨f, [x, y], ⟨.ok v, s₁⟩⟩ with
        | error fault =>
          obtain ⟨rfl, rfl⟩ := (makes_resume_sorting_of_error ha).mp hrest
          exact ⟨s₁, .error fault, .cons hcall (.nil _), .faulty next ha, rfl⟩
        | ok a =>
          rw [resume_sorting_of_ok ha, ih] at hrest
          obtain ⟨s', result, hcalls, hfollows, rfl⟩ := hrest
          exact ⟨s', result, .cons hcall hcalls, .answered ha hfollows, rfl⟩
    · rintro ⟨s', result, hcalls, hfollows, rfl⟩
      cases hfollows with
      | @faulty _ _ _ o' fault ha =>
        obtain ⟨returned, s₁⟩ := o'
        cases hcalls with
        | cons hcall hcalls =>
          cases hcalls
          cases returned with
          | error fault' =>
            obtain rfl := Except.error.inj ha
            exact .failed _ hcall
          | ok v => exact .answered hcall ((makes_resume_sorting_of_error ha).mpr ⟨rfl, rfl⟩)
      | @answered _ _ _ o' a _ _ ha hfollows =>
        obtain ⟨returned, s₁⟩ := o'
        cases hcalls with
        | cons hcall hcalls =>
          cases returned with
          | error fault => cases ha
          | ok v =>
            refine .answered hcall ?_
            rw [resume_sorting_of_ok ha, ih]
            exact ⟨s', result, hcalls, hfollows, rfl⟩

namespace Query

variable {q : Query Value (List Value)} {Q : List Value → Prop}
  {result : Except Fault (List Value)} {fault : Fault} {ys : List Value}

/-- All calls of a sort compare elements of the list, if all of its questions do. -/
theorem Follows.compares (h : q.Follows f calls result) (hq : q.All (· ∈ xs) Q) :
    ∀ c ∈ calls, c.Compares f xs := by
  induction h with
  | done ys => exact List.forall_mem_nil _
  | faulty next ha => exact List.forall_mem_singleton.mpr ⟨rfl, _, hq.1, _, hq.2.1, rfl⟩
  | answered ha _ ih =>
    exact List.forall_mem_cons.mpr ⟨⟨rfl, _, hq.1, _, hq.2.1, rfl⟩, ih (hq.2.2 _)⟩

/-- A result is one that the questions can lead to, and every call gave a number. -/
theorem Follows.of_ok (h : q.Follows f calls (.ok ys)) (hq : q.All (· ∈ xs) Q) :
    Q ys ∧ ∀ c ∈ calls, ∃ a, c.comparison = .ok a := by
  generalize hresult : Except.ok ys = result at h
  induction h with
  | done ys' =>
    obtain rfl := Except.ok.inj hresult
    exact ⟨hq, List.forall_mem_nil _⟩
  | faulty => cases hresult
  | answered ha _ ih =>
    obtain ⟨hys, hcalls⟩ := ih (hq.2.2 _) hresult
    exact ⟨hys, List.forall_mem_cons.mpr ⟨⟨_, ha⟩, hcalls⟩⟩

/-- A fault is that of the last call, and every call before it gave a number. -/
theorem Follows.of_error (h : q.Follows f calls (.error fault)) :
    ∃ earlier c, calls = earlier ++ [c] ∧ c.comparison = .error fault ∧
      ∀ c ∈ earlier, ∃ a, c.comparison = .ok a := by
  generalize hresult : Except.error fault = result at h
  induction h with
  | done => cases hresult
  | faulty next ha =>
    obtain rfl := Except.error.inj hresult
    exact ⟨[], _, rfl, ha, List.forall_mem_nil _⟩
  | answered ha _ ih =>
    obtain ⟨earlier, c, rfl, hc, hearlier⟩ := ih hresult
    exact ⟨_ :: earlier, c, rfl, hc, List.forall_mem_cons.mpr ⟨⟨_, ha⟩, hearlier⟩⟩

end Query

/-- No comparison leaves a store as it is. -/
theorem Compared.refl : Compared limits f xs s s := ⟨[], .nil s, List.forall_mem_nil _⟩

/-- A comparison that gives a number leads from one such store to the next. -/
theorem Compared.step {x y : Value} {a : Float} (hx : x ∈ xs) (hy : y ∈ xs)
    (hcall : Returns limits f [x, y] s o) (ha : Call.comparison ⟨f, [x, y], o⟩ = .ok a)
    (h : Compared limits f xs o.store s') : Compared limits f xs s s' := by
  obtain ⟨calls, hcalls, hcompares⟩ := h
  exact ⟨_, .cons hcall hcalls, List.forall_mem_cons.mpr ⟨⟨⟨rfl, x, hx, y, hy, rfl⟩, a, ha⟩,
    hcompares⟩⟩

/-- If all comparisons come to an outcome, a computation comes to a result. What is known of the
outcomes decides what is known of the result. -/
theorem Query.exists_follows {q : Query Value (List Value)} {P Q : List Value → Prop}
    (tells : Value → Value → Except Fault Float → Prop) (hq : q.All (· ∈ xs) P)
    (hensures : q.Ensures (fun x y answer => ∃ a, tells x y (.ok a) ∧ answer = decide (a < 0)) Q)
    (hcalls : ∀ s', Compared limits f xs s s' → ∀ x ∈ xs, ∀ y ∈ xs,
      ∃ o, Returns limits f [x, y] s' o ∧ tells x y (Call.comparison ⟨f, [x, y], o⟩)) :
    ∃ calls s' result, Consecutive limits s calls s' ∧ q.Follows f calls result ∧
      (∀ ys, result = .ok ys → Q ys) ∧
      ∀ fault, result = .error fault → ∃ x y, tells x y (.error fault) := by
  induction q generalizing s with
  | done ys =>
    refine ⟨[], s, .ok ys, .nil s, .done ys, ?_, ?_⟩
    · rintro _ ⟨⟩
      exact hensures
    · rintro _ ⟨⟩
  | ask x y next ih =>
    obtain ⟨o, hreturns, htells⟩ := hcalls s .refl x hq.1 y hq.2.1
    cases ha : Call.comparison ⟨f, [x, y], o⟩ with
    | error fault =>
      refine ⟨_, o.store, .error fault, .cons hreturns (.nil _), .faulty next ha, ?_, ?_⟩
      · rintro _ ⟨⟩
      · rintro _ ⟨⟩
        exact ⟨x, y, ha ▸ htells⟩
    | ok a =>
      obtain ⟨calls, s', result, hrest, hfollows, hresult⟩ :=
        ih (a < 0) (hq.2.2 _) (hensures _ ⟨a, ha ▸ htells, rfl⟩) fun s' hs' =>
          hcalls s' (.step hq.1 hq.2.1 hreturns ha hs')
      exact ⟨_, s', result, .cons hreturns hrest, .answered ha hfollows, hresult⟩

/-- A comparison comes to a number that is below zero exactly if the first element comes before. -/
def Agrees (less : Value → Value → Bool) (x y : Value) (comparison : Except Fault Float) : Prop :=
  ∃ a, comparison = .ok a ∧ less x y = decide (a < 0)

/-- A sort that is handed an array and something callable sorts the elements of the array. -/
theorem Builtin.run_sort_of_callable {r : ArrayRef} (hf : f.isCallable = true) :
    Builtin.sort.run s [.array r, f] = Reply.sort s f (Sorting.sort (s.items r).toList) := by
  cases f with
  | closure | builtin | classRef => rfl
  | _ => cases hf

/-- If all comparisons come to an outcome, a sort does. -/
theorem exists_returns_sort {home : ScopeRef} {r : ArrayRef} {Q : List Value → Prop}
    (hf : f.isCallable = true) (tells : Value → Value → Except Fault Float → Prop)
    (hensures : (sort (s.items r).toList).Ensures
      (fun x y answer => ∃ a, tells x y (.ok a) ∧ answer = decide (a < 0)) Q)
    (hcalls : ∀ s', Compared limits f (s.items r).toList s s' → ∀ x ∈ (s.items r).toList,
      ∀ y ∈ (s.items r).toList,
        ∃ o, Returns limits f [x, y] s' o ∧ tells x y (Call.comparison ⟨f, [x, y], o⟩)) :
    ∃ s' result, Returns limits (.builtin .sort home) [.array r, f] s (outcome s' result) ∧
      (∀ ys, result = .ok ys → Q ys) ∧
      ∀ fault, result = .error fault → ∃ x y, tells x y (.error fault) := by
  obtain ⟨calls, s', result, hconsecutive, hfollows, hresult⟩ :=
    exists_follows tells (all_sort _ fun _ hx => hx) hensures hcalls
  refine ⟨s', result, returns_builtin_iff.mpr ⟨calls, ?_⟩, hresult⟩
  rw [Builtin.run_sort_of_callable hf, makes_sort_iff]
  exact ⟨s', result, hconsecutive, hfollows, rfl⟩

/-- A sort with a comparator writes nothing between the calls of it, which are about elements that
the array had at the start. It comes to a new array of these elements if all calls give numbers, and
to the fault of the first one that does not, behind which there is none. If the comparator always
comes to an outcome, so does the sort. And if the answers are those of a strict weak order, however
often they are asked for, the new array is the stable sorting by it. -/
theorem sort_by_comparator (limits : Limits) (home : ScopeRef) (s : Store) (r : ArrayRef)
    (f : Value) (hf : f.isCallable = true) :
    let xs := (s.items r).toList
    (∀ o, Returns limits (.builtin .sort home) [.array r, f] s o ↔
      ∃ calls, (Builtin.sort.run s [.array r, f]).Makes limits calls o) ∧
    (∀ calls o, (Builtin.sort.run s [.array r, f]).Makes limits calls o → ∃ s',
      Consecutive limits s calls s' ∧ o.store.items r = s'.items r ∧
      (∀ c ∈ calls, c.Compares f xs) ∧
      ((∃ ys : List Value, ys.Perm xs ∧ o = .given (s'.newArray ys.toArray) ∧
          ∀ c ∈ calls, ∃ a, c.comparison = .ok a) ∨
        ∃ earlier c fault, calls = earlier ++ [c] ∧ c.comparison = .error fault ∧
          (∀ c ∈ earlier, ∃ a, c.comparison = .ok a) ∧ o = ⟨.error fault, s'⟩)) ∧
    ((∀ s', Compared limits f xs s s' → ∀ x ∈ xs, ∀ y ∈ xs, ∃ o, Returns limits f [x, y] s' o) →
      ∃ o, Returns limits (.builtin .sort home) [.array r, f] s o) ∧
    ∀ less : Value → Value → Bool,
      (∀ s', Compared limits f xs s s' → ∀ x ∈ xs, ∀ y ∈ xs, ∃ a s'',
        Returns limits f [x, y] s' ⟨.ok (.number a), s''⟩ ∧ less x y = decide (a < 0)) →
      StrictWeakOrder (fun x y => less x y = true) xs →
      ∃ (ys : List Value) (s' : Store), StableSorting (fun x y => less x y = true) xs ys ∧
        Returns limits (.builtin .sort home) [.array r, f] s (.given (s'.newArray ys.toArray)) := by
  intro xs
  have hall : (sort xs).All (· ∈ xs) (List.Perm xs) := all_sort xs fun _ hx => hx
  have hrun := Builtin.run_sort_of_callable (s := s) (r := r) hf
  refine ⟨fun _ => returns_builtin_iff, fun calls o h => ?_, fun hcalls => ?_,
    fun less hcalls hless => ?_⟩
  · rw [hrun, makes_sort_iff] at h
    obtain ⟨s', result, hcalls, hfollows, rfl⟩ := h
    cases result with
    | ok ys =>
      obtain ⟨hperm, hnumbers⟩ := hfollows.of_ok hall
      exact ⟨s', hcalls, hcalls.items_newArray_of_perm hperm, hfollows.compares hall,
        .inl ⟨ys, hperm.symm, rfl, hnumbers⟩⟩
    | error fault =>
      obtain ⟨earlier, c, hlast, hc, hearlier⟩ := hfollows.of_error
      exact ⟨s', hcalls, rfl, hfollows.compares hall,
        .inr ⟨earlier, c, fault, hlast, hc, hearlier, rfl⟩⟩
  · obtain ⟨s', result, hreturns, -⟩ :=
      exists_returns_sort hf (fun _ _ _ => True) hall.ensures fun s' hs' x hx y hy =>
        (hcalls s' hs' x hx y hy).imp fun _ hreturns => ⟨hreturns, trivial⟩
    exact ⟨outcome s' result, hreturns⟩
  · have hensures : (sort xs).Ensures
        (fun x y answer => ∃ a, Agrees less x y (.ok a) ∧ answer = decide (a < 0))
        (StableSorting (fun x y => less x y = true) xs) := by
      refine (ensures_sort_stable hless).of_allowed ?_
      rintro x y _ ⟨a, ⟨b, hb, hless⟩, rfl⟩
      cases hb
      exact hless.symm
    obtain ⟨s', result, hreturns, hok, herror⟩ :=
      exists_returns_sort hf (Agrees less) hensures fun s' hs' x hx y hy => by
        obtain ⟨a, s'', hreturns, hless⟩ := hcalls s' hs' x hx y hy
        exact ⟨_, hreturns, a, rfl, hless⟩
    cases result with
    | ok ys => exact ⟨ys, s', hok ys rfl, hreturns⟩
    | error fault =>
      obtain ⟨x, y, a, ha, -⟩ := herror fault rfl
      cases ha

/-- Subtraction sorts two numbers. -/
theorem sort_by_comparator_subtract :
    ∃ s : Store, s.items 0 = #[.number 2, .number 1] ∧
      (Value.builtin .subtract 0).isCallable = true ∧
      ∃ (ys : List Value) (s' : Store),
        StableSorting (fun x y => decide (x = .number 1 ∧ y = .number 2) = true)
          [.number 2, .number 1] ys ∧
        Returns ⟨none, none⟩ (.builtin .sort 0) [.array 0, .builtin .subtract 0] s
          (.given (s'.newArray ys.toArray)) := by
  refine ⟨((Store.empty (.fresh none) false).newArray #[.number 2, .number 1]).2, rfl, rfl, ?_⟩
  have hlaws := (sort_by_comparator ⟨none, none⟩ 0
    ((Store.empty (.fresh none) false).newArray #[.number 2, .number 1]).2 0
    (.builtin .subtract 0) rfl).2.2.2 fun x y => decide (x = .number 1 ∧ y = .number 2)
  refine hlaws (fun s' _ x hx y hy => ?_) ⟨by decide +kernel, by decide +kernel, by decide +kernel⟩
  rcases List.mem_pair.mp hx with rfl | rfl <;> rcases List.mem_pair.mp hy with rfl | rfl <;>
    exact ⟨_, s', ⟨3, rfl⟩, by decide +kernel⟩

end TinyScript
