import TinyScript.Proofs.ScopeFrame

/-!
# Scopes lie inside older ones

A scope is made inside one that is there already, and a closure keeps a scope that is there. So the
way from a scope outwards leads to older and older scopes and ends. Every step of the machine keeps
this.
-/

namespace TinyScript

/-- Two closures that differ at most in their names. -/
structure Closure.Alike (c c' : Closure) : Prop where
  params : c'.params = c.params
  body : c'.body = c.body
  scope : c'.scope = c.scope

/-- A closure is like itself. -/
theorem Closure.Alike.refl (c : Closure) : c.Alike c := ⟨rfl, rfl, rfl⟩

/-- Closures that are like the same one are like each other. -/
theorem Closure.Alike.trans {c c' c'' : Closure} (h : c.Alike c') (h' : c'.Alike c'') :
    c.Alike c'' :=
  ⟨h'.params.trans h.params, h'.body.trans h.body, h'.scope.trans h.scope⟩

namespace Store

variable {s : Store}

/-- The scope that a scope of the store lies inside of. -/
theorem outer?_eq_some {r : Nat} {scope : Scope} (h : s.scopes[r]? = some scope) :
    s.outer? r = scope.outer := by rw [outer?, h, Option.bind_some]

/-- Naming a closure changes nothing else about it. -/
theorem closure_of_nameClosure {v : Value} {name : Text} {r : Nat} {c : Closure}
    (h : (s.nameClosure v name).closures[r]? = some c) :
    ∃ old, s.closures[r]? = some old ∧ old.Alike c := by
  cases v with
  | closure q =>
    simp only [nameClosure, Array.getElem?_modify] at h
    split_ifs at h with hq
    · obtain ⟨old, hold, rfl⟩ := Option.map_eq_some_iff.mp h
      refine ⟨old, hold, ?_⟩
      split_ifs
      · exact ⟨rfl, rfl, rfl⟩
      · exact .refl old
    · exact ⟨c, h, .refl c⟩
  | _ => exact ⟨c, h, .refl c⟩

/-- Recording an event leaves the closures alone. -/
@[simp] theorem closures_record (s : Store) (phase : Phase) (name : Text) :
    (s.record phase name).closures = s.closures := by
  unfold record
  split <;> rfl

/-- Every scope lies inside an older one, or inside none. -/
def OuterOlder (s : Store) : Prop := ∀ r o : Nat, s.outer? r = some o → o < r

/-- Binding a name leaves scopes inside the ones they lie in. -/
theorem OuterOlder.define (hs : s.OuterOlder) (e : ScopeRef) (name : Text) (v : Value) :
    (s.define e name v).OuterOlder := by
  intro r o ho
  rw [outer?_define] at ho
  exact hs r o ho

/-- A new scope inside one that is there lies inside an older one. -/
theorem OuterOlder.newScope (hs : s.OuterOlder) {outer : Option ScopeRef}
    (houter : ∀ e, outer = some e → e < s.scopes.size) (bindings : Bindings) :
    (s.newScope outer bindings).2.OuterOlder := by
  intro r o ho
  simp only [outer?, Store.newScope, Array.getElem?_push] at ho
  split_ifs at ho with hr
  · exact hr ▸ houter o ho
  · exact hs r o ho

/-- Scopes lie inside older ones, and closures were made in scopes that are there. -/
structure Layered (s : Store) : Prop where
  outer : ∀ r o : Nat, s.outer? r = some o → o < r
  closures : ∀ c ∈ s.closures, c.scope < s.scopes.size

namespace Layered

/-- Being layered is a matter of scopes and closures alone. -/
theorem congr {s' : Store} (h : s.Layered) (hscopes : s'.scopes = s.scopes)
    (hclosures : s'.closures = s.closures) : s'.Layered where
  outer r o ho := h.outer r o (by rwa [outer?_congr hscopes] at ho)
  closures := by
    rw [hclosures, hscopes]
    exact h.closures

end Layered

end Store

/-- The scopes of a state lie inside older ones, and the state works in scopes that are there. -/
structure Machine.Layered (m : Machine) : Prop where
  store : m.store.Layered
  places : ∀ r ∈ m.places, r < m.store.scopes.size

namespace Machine

variable {limits : Limits} {m m' : Machine}

/-- A state evaluates a function form, and the closure that this makes is a given one. -/
inductive Makes : Machine → Expr → ClosureRef → Closure → Prop where
  | function {p : Position} {args : List Expr} {c : Closure} {stack : List Frame} {s : Store}
      (hparams : words args.dropLast = .ok c.params) (hbody : args.getLast? = some c.body) :
      Makes (evaluating (.apply (.word Form.function.label p) args) c.scope stack s)
        (.apply (.word Form.function.label p) args) s.closures.size c

/-- A closure was there before a step, up to its name, or is made by the function form that is
evaluated. -/
theorem Next.closure_origin (h : Next limits m m') {r : Nat} {c : Closure}
    (hc : m'.store.closures[r]? = some c) :
    (∃ old, m.store.closures[r]? = some old ∧ old.Alike c) ∨ ∃ e, m.Makes e r c := by
  cases h with
  | @function p args scope stack s params body hparams hbody =>
    simp only [store, Array.getElem?_push] at hc
    split_ifs at hc with hr
    · obtain rfl := Option.some.inj hc
      subst hr
      exact .inr ⟨_, @Makes.function p args ⟨_, params, body, scope⟩ stack s hparams hbody⟩
    · exact .inl ⟨c, hc, .refl c⟩
  | @builtin b home args stack s =>
    rw [store_reply, (b.run_answers s args).sameOutline.closures] at hc
    exact .inl ⟨c, hc, .refl c⟩
  | @resume v pending stack s =>
    rw [store_reply, (pending.sameOutline_resume s v).closures] at hc
    exact .inl ⟨c, hc, .refl c⟩
  | define => exact .inl (Store.closure_of_nameClosure hc)
  | member hlearns | madeClass hlearns =>
    cases hlearns with
    | maker => exact .inl ⟨c, hc, .refl c⟩
    | method => exact .inl (Store.closure_of_nameClosure hc)
  | tracedCall | traced | tracedFault =>
    rw [store, Store.closures_record] at hc
    exact .inl ⟨c, hc, .refl c⟩
  | _ => exact .inl ⟨c, hc, .refl c⟩

/-- A scope was there before a step, inside the same scope, or is the one that is opened for a
closure. -/
theorem Next.outer_origin (h : Next limits m m') {r o : ScopeRef}
    (ho : m'.store.outer? r = some o) :
    m.store.outer? r = some o ∨
      r = m.store.scopes.size ∧ ∃ c ∈ m.store.closures, o = c.scope := by
  cases h with
  | @body _ args stack s c hc _ =>
    simp only [Machine.store, Store.outer?, Store.newScope, Array.getElem?_push] at ho
    split_ifs at ho with heq
    · exact .inr ⟨heq, c, Array.mem_of_getElem? hc, (Option.some.inj ho).symm⟩
    · exact .inl ho
  | @builtin b home args stack s =>
    rw [store_reply, Store.outer?_congr (b.run_answers s args).sameOutline.scopes] at ho
    exact .inl ho
  | @resume v pending stack s =>
    rw [store_reply, Store.outer?_congr (pending.sameOutline_resume s v).scopes] at ho
    exact .inl ho
  | define =>
    rw [store, Store.outer?_define, Store.outer?_congr (Store.scopes_nameClosure ..)] at ho
    exact .inl ho
  | assign =>
    rw [store, Store.outer?_define] at ho
    exact .inl ho
  | member hlearns =>
    rw [store, Store.outer?_congr hlearns.scopes] at ho
    exact .inl ho
  | @madeClass v maker frame methods plan stack s s' hlearns =>
    have hscopes : (s'.newClass ⟨plan.name, maker, methods⟩).2.scopes = s.scopes := hlearns.scopes
    rw [store, Store.outer?_define, Store.outer?_congr hscopes] at ho
    exact .inl ho
  | tracedCall | traced | tracedFault =>
    rw [store, Store.outer?_congr (Store.scopes_record ..)] at ho
    exact .inl ho
  | _ => exact .inl ho

/-- A step removes no scope. -/
theorem Next.scopes_size_le (h : Next limits m m') :
    m.store.scopes.size ≤ m'.store.scopes.size := by
  have hkept : m.store.ScopesKept 0 0 (fun _ _ => True) m'.store :=
    h.scopesKept (Nat.zero_le _) (fun r _ => .inr (Nat.zero_le r)) fun _ _ _ _ _ _ _ _ _ => trivial
  exact hkept.size

/-- A step keeps scopes inside older ones. -/
theorem Next.layered (h : Next limits m m') (hm : m.Layered) : m'.Layered where
  store.outer r o ho := by
    rcases h.outer_origin ho with ho | ⟨rfl, c, hc, rfl⟩
    · exact hm.store.outer r o ho
    · exact hm.store.closures c hc
  store.closures c hc := by
    refine Nat.lt_of_lt_of_le ?_ h.scopes_size_le
    obtain ⟨r, hr⟩ := Array.mem_iff_getElem?.mp hc
    rcases h.closure_origin hr with ⟨old, hold, halike⟩ | ⟨e, hmakes⟩
    · exact halike.scope ▸ hm.store.closures old (Array.mem_of_getElem? hold)
    · cases hmakes with
      | function => exact hm.places c.scope List.mem_cons_self
  places r hr := by
    rcases h.places hr with hr | ⟨-, hr⟩
    · exact Nat.lt_of_lt_of_le (hm.places r hr) h.scopes_size_le
    · exact hr

end Machine

end TinyScript
