import Mathlib.Logic.Function.Iterate
import TinyScript.Proofs.Hosts

/-!
# The values of programs

There is one value that only a host can make, and programs never get hold of it: it is in no scope,
array, instance or class that programs can come to, and no program gives it back. So the type of
every value of a program is one of seven. Along with this, every class names each of its methods
once, and the way outwards from every scope ends.
-/

namespace TinyScript

/-- A value that programs can have, of one of the seven types that they tell apart. -/
structure Value.Present (v : Value) : Prop where
  ne_absent : v ≠ .absent
  type : v.type.name ∈ ["number", "string", "boolean", "array", "function", "class", "instance"]

/-- A good value is one that programs can have. -/
theorem Value.Within.present {x : Extent} {v : Value} (h : v.Within x) : v.Present := by
  cases v with
  | absent => exact h.elim
  | _ => exact ⟨by simp, by simp [Value.type, ValueType.name]⟩

/-- All that a store holds are values that programs can have; every class names its methods in the
order in which they were first given; and going outwards from a scope ends. -/
structure Store.Intact (s : Store) : Prop where
  bindings : ∀ r name v, s.bound? r name = some v → v.Present
  elements : ∀ r, ∀ v ∈ s.items r, v.Present
  fields : ∀ r name v, (s.fields r).get? name = some v → v.Present
  makers : ∀ info ∈ s.classes, info.maker.Present
  methods : ∀ info ∈ s.classes, ∀ name v, info.methods.get? name = some v → v.Present
  order : ∀ info ∈ s.classes, info.methods.order.Nodup ∧
    ∀ name, name ∈ info.methods.order ↔ (info.methods.get? name).isSome
  outwards : ∀ r, ∃ n, (fun e => e.bind s.outer?)^[n] (some r) = none

namespace Store

variable {s : Store}

/-- Going outwards leads to older and older scopes, so it ends. -/
theorem OuterOlder.outwards (h : s.OuterOlder) (r : ScopeRef) :
    ∃ n, (fun e => e.bind s.outer?)^[n] (some r) = none := by
  induction r using Nat.strongRecOn with
  | ind r ih =>
    cases houter : s.outer? r with
    | none => exact ⟨1, houter⟩
    | some o =>
      obtain ⟨n, hn⟩ := ih o (h r o houter)
      refine ⟨n + 1, ?_⟩
      rw [Function.iterate_succ_apply, Option.bind_some, houter]
      exact hn

/-- A sound store holds only what programs can have. -/
theorem Sound.intact (h : s.Sound) : s.Intact where
  bindings r name v hv := by
    obtain ⟨scope, hscope, hv⟩ := Option.bind_eq_some_iff.mp hv
    exact (h.wellFormed.scopes scope (Array.mem_of_getElem? hscope) name v hv).present
  elements r v hv := (h.wellFormed.items r v hv).present
  fields r name v hv := (h.wellFormed.fields r name v hv).present
  makers info hinfo := by
    obtain ⟨r, hr⟩ := Array.mem_iff_getElem?.mp hinfo
    exact (h.wellFormed.classes r info hr).1.present
  methods info hinfo name v hv := by
    obtain ⟨r, hr⟩ := Array.mem_iff_getElem?.mp hinfo
    exact ((h.wellFormed.classes r info hr).2 name v hv).present
  order info hinfo := by
    refine ⟨(h.listed info hinfo).nodup, fun name => ?_⟩
    rw [(h.listed info hinfo).mem_order, ← Bindings.get?_isSome_iff]
    rfl
  outwards := OuterOlder.outwards h.layered.outer

end Store

/-- A call of `type` gives the name of the type of its argument. -/
theorem Machine.step_typeOf (limits : Limits) (home : ScopeRef) (v : Value) (stack : List Frame)
    (s : Store) :
    step limits (calling (.builtin .typeOf home) [v] stack s) =
      .inl (giving (.string v.type.name) stack s) := rfl

/-- A host begins with a top scope, and then makes scopes and runs programs in any order, whether
they succeed or not. Then all that the store holds are values that programs can have, every class
names each of its methods once, and going outwards from a scope ends. This holds all along the next
program too, where every value that is worked on is one that programs can have, and a call of `type`
gives one of seven names. If the program gives a value back, it is one that programs can have. -/
theorem intact_of_leads {output : Output} {traced : Bool} {s : Store}
    (h : (Store.empty output traced).newTopScope.2.Leads s) :
    s.Intact ∧
    (∀ limits scope e m, scope < s.scopes.size →
      Machine.Reaches limits (.evaluating e scope [] { s with steps := 0 }) m →
        m.store.Intact ∧ (∀ v ∈ m.values, v.Present) ∧
        ∀ home v stack t, m = .calling (.builtin .typeOf home) [v] stack t →
          ∃ name ∈ ["number", "string", "boolean", "array", "function", "class", "instance"],
            Machine.step limits m = .inl (.giving (.string name) stack t)) ∧
    ∀ limits fuel src scope o v, scope < s.scopes.size →
      execute limits fuel src scope s = some o → o.result = .ok v → v.Present := by
  have hsound : s.Sound := h.sound (Store.sound_empty output traced).newTopScope
  refine ⟨hsound.intact, ?_, ?_⟩
  · intro limits scope e m hscope hreaches
    have hm := (hsound.evaluating hscope e).reaches hreaches
    have hvalues : ∀ v ∈ m.values, v.Present := fun v hv => (hm.wellFormed.values v hv).present
    refine ⟨hm.store.intact, hvalues, ?_⟩
    rintro home v stack t rfl
    have hv : v.Present := hvalues v (by simp [Machine.values])
    exact ⟨v.type.name, hv.type, Machine.step_typeOf limits home v stack t⟩
  · intro limits fuel src scope o v hscope ho hv
    rcases exists_reaches_of_execute ho with ⟨fault, -, rfl⟩ | ⟨e, m, -, hreaches, -, hm⟩
    · cases hv
    · obtain rfl := hm v hv
      have hsound := (hsound.evaluating hscope e).reaches hreaches
      exact (hsound.wellFormed.values v List.mem_cons_self).present

/-- A comparison fails while an array is sorted, then a class gives one of its methods twice, and an
instance of the class is made. -/
theorem intact_of_leads_class :
    ∃ (s : Store) (o : Outcome) (v : Value),
      (Store.empty (.fresh none) false).newTopScope.2.Leads s ∧
      s.classes.map (fun info => info.methods.order) =
        #[["m", "n"].map Text.ofString] ∧
      s.Intact ∧ execute ⟨none, none⟩ 100 "P(a)" 0 s = some o ∧ o.result = .ok v ∧ v.Present := by
  obtain ⟨o₁, ho₁, hcheck⟩ := (Option.any_eq_true ..).mp (by decide +kernel :
    ((execute ⟨none, none⟩ 200 "do(define(a, array(3, 1, 2)), sort(a, fun(x, y, z)))" 0
      (Store.empty (.fresh none) false).newTopScope.2).any fun o₁ => !o₁.result.isOk &&
        o₁.store.scopes.size == 2 &&
        (execute ⟨none, none⟩ 200 "class(P, fun(this, x, put(this, \"x\", x)),
          method(\"m\", fun(this, 1)), method(\"n\", fun(this, 2)), method(\"m\", fun(this, 3)))" 0
          o₁.store).any fun o₂ =>
            o₂.store.scopes.size == 2 &&
            o₂.store.classes.map (fun info => info.methods.order) ==
              #[["m", "n"].map Text.ofString] &&
              (execute ⟨none, none⟩ 100 "P(a)" 0 o₂.store).any fun o => o.result.isOk) = true)
  simp only [Bool.and_eq_true, beq_iff_eq] at hcheck
  obtain ⟨⟨-, hsize₁⟩, hcheck⟩ := hcheck
  obtain ⟨o₂, ho₂, hcheck⟩ := (Option.any_eq_true ..).mp hcheck
  simp only [Bool.and_eq_true, beq_iff_eq] at hcheck
  obtain ⟨⟨hsize₂, horder⟩, hcheck⟩ := hcheck
  obtain ⟨o, ho, hcheck⟩ := (Option.any_eq_true ..).mp hcheck
  have hleads : (Store.empty (.fresh none) false).newTopScope.2.Leads o₂.store :=
    .tail (.single (.execute (by decide) ho₁)) (.execute (by rw [hsize₁]; decide) ho₂)
  obtain ⟨hintact, -, hpresent⟩ := intact_of_leads hleads
  cases hresult : o.result with
  | error fault =>
    rw [hresult] at hcheck
    cases hcheck
  | ok v =>
    exact ⟨o₂.store, o, v, hleads, horder, hintact, ho, hresult,
      hpresent _ _ _ _ o v (by rw [hsize₂]; decide) ho hresult⟩

end TinyScript
