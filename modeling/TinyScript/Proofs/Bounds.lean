import TinyScript.Proofs.Replies

/-!
# Nothing reaches outside its bounds

An access outside of bounds would be a fault of its own. No builtin raises it, with whatever
arguments and in whatever store, and a run raises it only where it calls what is not in the store.
As long as all references are good, no run ends in it.
-/

namespace TinyScript

/-- The part of a text is the part of the list of its characters, where stray bytes count as one
character each. -/
theorem Builtin.textPart_eq (t : Text) (first stop : Nat) :
    textPart t first stop =
      if first ≤ stop ∧ stop ≤ t.chars.length then
        .ok (.string (Text.ofChars ((t.chars.take stop).drop first)))
      else .error .outOfRange := by
  have hlength : t.length = t.chars.length := by rw [Text.length_eq, Text.chars, List.length_map]
  have hchars : (t.part first stop).chars = (t.chars.take stop).drop first := by
    rw [Text.chars, Text.characters_part, List.map_drop, List.map_take]
    rfl
  rw [textPart, Text.mended_eq, hchars, hlength]

/-- A reply that blames only what a running program can have is no access outside of bounds. -/
theorem Reply.Blames.ne_outOfRange {r : Reply} {cause : Cause} {s : Store}
    (h : r.Blames Cause.IsRegular) (hr : r = .failure cause s) : cause ≠ .outOfRange := by
  rw [hr] at h
  exact Cause.IsRegular.ne_outOfRange h

namespace Machine

variable {limits : Limits} {m m' : Machine}

/-- As long as all references are good, only faults are raised that a running program can have. -/
theorem Reaches.blames (h : Reaches limits m m') (hm : m.WellFormed)
    (hblames : m.Blames Cause.IsRegular) : m'.Blames Cause.IsRegular := by
  induction h with
  | refl => exact hblames
  | tail hreaches hstep ih =>
    have hgood := Reaches.wellFormed hreaches hm
    apply (next_of_step hstep).blames (fun _ hcause => hcause) _ ih
    intro f args stack s hcalling
    subst hcalling
    exact .inl (hgood.values f List.mem_cons_self)

/-- A call of something good in a good store does not end in an access outside of bounds. -/
theorem ne_outOfRange_of_run {fuel : Nat} {o : Outcome} {fault : Fault} (hm : m.WellFormed)
    (hblames : m.Blames Cause.IsRegular) (h : run limits fuel m = some o)
    (hfault : o.result = .error fault) : fault.cause ≠ .outOfRange := by
  have hreaches := reaches_raising_of_run h hfault
  exact (hreaches.blames hm hblames).ne_outOfRange

end Machine

/-- No builtin reaches outside of what it looks at, whatever its arguments are and whatever the
store holds. The least number of arguments that it declares covers every argument it reads; it stays
within bounds where it goes on after calling back; sorting compares only places that are there;
characters are counted as they are cut. In a store with good references, no call of a builtin ends
in an access outside of bounds, whatever it calls back into. -/
theorem builtin_inBounds (b : Builtin) (s : Store) (args : List Value) :
    (∀ cause s', b.run s args = .failure cause s' → cause ≠ .outOfRange) ∧
    (b.signature.least ≤ args.length →
      (∀ cause, b.pureResult? s args = some (.error cause) → cause ≠ .outOfRange) ∧
      (b.pureResult? s args = none →
        (∀ cause, b.effect s args = .error cause → cause ≠ .outOfRange) ∧
        ∀ act cause s', b.effect s args = .ok act → act s = .failure cause s' →
          cause ≠ .outOfRange)) ∧
    (∀ (pending : Pending) v cause s', pending.resume s v = .failure cause s' →
      cause ≠ .outOfRange) ∧
    (∀ compare : Array Value → Nat → Nat → Query Value Bool,
      (∀ xs i j, i < xs.size → j < xs.size → compare xs i j = Sorting.compareAt xs i j) →
        ∀ xs, Sorting.sortBy compare xs = Sorting.sort xs) ∧
    (∀ t first stop, Builtin.textPart t first stop =
      if first ≤ stop ∧ stop ≤ t.chars.length then
        .ok (.string (Text.ofChars ((t.chars.take stop).drop first)))
      else .error .outOfRange) ∧
    (s.WellFormed → (∀ v ∈ args, v.Within s.extent) → ∀ limits fuel home o fault,
      applyValue limits fuel (.builtin b home) args s = some o → o.result = .error fault →
        fault.cause ≠ .outOfRange) := by
  refine ⟨?_, ?_, ?_, ?_, Builtin.textPart_eq, ?_⟩
  · intro cause s' hrun
    exact (b.blames_run s args).ne_outOfRange hrun
  · intro hargs
    constructor
    · intro cause hresult
      exact Cause.IsRegular.ne_outOfRange (Builtin.blames_pureResult hargs hresult)
    · intro hpure
      have heffect := Builtin.regularEffect_effect hargs hpure
      constructor
      · intro cause hcause
        rw [hcause] at heffect
        exact Cause.IsRegular.ne_outOfRange heffect
      · intro act cause s' hact hfailure
        rw [hact] at heffect
        have hblames : (act s).Blames Cause.IsRegular := heffect
        exact hblames.ne_outOfRange hfailure
  · intro pending v cause s' hresume
    exact (pending.blames_resume s v).ne_outOfRange hresume
  · intro compare hcompare xs
    exact Sorting.sortBy_congr hcompare xs
  · intro hs hargs limits fuel home o fault hrun hfault
    have hgood : (Machine.calling (.builtin b home) args [] s).WellFormed :=
      Machine.wellFormed_calling hs (List.forall_mem_nil _) trivial hargs
    exact Machine.ne_outOfRange_of_run hgood trivial hrun hfault

/-- The element behind the last one of an array that holds itself: a fault, but not an access
outside of bounds. -/
theorem builtin_inBounds_element :
    ∃ (s : Store) (o : Outcome) (fault : Fault),
      s.WellFormed ∧ (∀ v ∈ [Value.array 0, .number 2], v.Within s.extent) ∧
      (s.items 0).size = 2 ∧
      applyValue ⟨none, none⟩ 10 (.builtin .element 0) [.array 0, .number 2] s = some o ∧
      o.result = .error fault ∧ fault.cause ≠ .outOfRange := by
  obtain ⟨o₁, ho₁, hcheck⟩ := (Option.any_eq_true ..).mp (by decide +kernel :
    ((execute ⟨none, none⟩ 100 "do(define(a, array(1)), push(a, a))"
      (Store.initial (.fresh none) false).1 (Store.initial (.fresh none) false).2).any fun o₁ =>
        o₁.store.arrays.size == 1 && (o₁.store.items 0).size == 2 &&
          (applyValue ⟨none, none⟩ 10 (.builtin .element 0) [.array 0, .number 2] o₁.store).any
            fun o => !o.result.isOk) = true)
  simp only [Bool.and_eq_true, beq_iff_eq] at hcheck
  obtain ⟨⟨harrays, hitems⟩, hcheck⟩ := hcheck
  obtain ⟨o, ho, hfails⟩ := (Option.any_eq_true ..).mp hcheck
  have hgood : o₁.store.WellFormed :=
    (Store.reachable_initial (.fresh none) false).wellFormed.execute ho₁
  have hargs : ∀ v ∈ [Value.array 0, .number 2], v.Within o₁.store.extent := by
    simp [Value.Within, Store.extent, harrays]
  cases hresult : o.result with
  | ok v =>
    rw [hresult] at hfails
    cases hfails
  | error fault =>
    refine ⟨o₁.store, o, fault, hgood, hargs, hitems, ho, hresult, ?_⟩
    exact (builtin_inBounds .element o₁.store _).2.2.2.2.2 hgood hargs _ _ _ o fault ho hresult

end TinyScript
