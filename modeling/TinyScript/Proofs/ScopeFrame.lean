import TinyScript.Proofs.Replies

/-!
# Which scopes an evaluation changes

An evaluation works in its own scope and in scopes that are opened for the functions it calls. So it
binds new names nowhere else: of the scopes that were there before, only its own one can gain names.
A binding in another scope changes only through a `set` that is evaluated on the way and finds its
name there.
-/

namespace TinyScript

namespace Store

/-- The value that a scope itself binds a name to. -/
def bound? (s : Store) (r : ScopeRef) (name : Text) : Option Value :=
  s.scopes[r]?.bind fun scope => scope.bindings.get? name

/-- The scope around a scope. -/
def outer? (s : Store) (r : ScopeRef) : Option ScopeRef := s.scopes[r]?.bind Scope.outer

/-- Naming a function leaves the scopes alone. -/
@[simp] theorem scopes_nameClosure (s : Store) (v : Value) (name : Text) :
    (s.nameClosure v name).scopes = s.scopes := by
  cases v <;> rfl

/-- Recording an event leaves the scopes alone. -/
@[simp] theorem scopes_record (s : Store) (phase : Phase) (name : Text) :
    (s.record phase name).scopes = s.scopes := by
  unfold record
  split <;> rfl

section Scopes

variable {s s' : Store} {r q : ScopeRef} {name : Text}

/-- What a scope binds is a matter of the scopes alone. -/
theorem bound?_congr (h : s'.scopes = s.scopes) : s'.bound? r name = s.bound? r name := by
  rw [bound?, h, bound?]

/-- What a scope lies inside of is a matter of the scopes alone. -/
theorem outer?_congr (h : s'.scopes = s.scopes) : s'.outer? r = s.outer? r := by
  rw [outer?, h, outer?]

/-- A new scope leaves what older scopes bind as it is. -/
theorem bound?_newScope (outer : Option ScopeRef) (bindings : Bindings) (hr : r < s.scopes.size) :
    (s.newScope outer bindings).2.bound? r name = s.bound? r name := by
  simp [bound?, newScope, Array.getElem?_push, hr, Nat.ne_of_lt hr]

/-- A new scope leaves older scopes inside the ones they lie in. -/
theorem outer?_newScope (outer : Option ScopeRef) (bindings : Bindings) (hr : r < s.scopes.size) :
    (s.newScope outer bindings).2.outer? r = s.outer? r := by
  simp [outer?, newScope, Array.getElem?_push, hr, Nat.ne_of_lt hr]

/-- Binding a name leaves scopes inside the ones they lie in. -/
theorem outer?_define (v : Value) : (s.define q name v).outer? r = s.outer? r := by
  simp only [outer?, define, Array.getElem?_modify]
  split
  · cases s.scopes[r]? <;> rfl
  · rfl

/-- A name that is bound in one scope changes in no other one. -/
theorem bound?_define_of_ne (v : Value) (hr : r ≠ q) (other : Text) :
    (s.define q name v).bound? r other = s.bound? r other := by
  simp only [bound?, define, Array.getElem?_modify, if_neg hr.symm]

/-- In its own scope a name that is bound gets the value, and no other name changes. -/
theorem bound?_define_self (v : Value) (other : Text) :
    (s.define q name v).bound? q other =
      if other = name ∧ q < s.scopes.size then some v else s.bound? q other := by
  simp only [bound?, define, Array.getElem?_modify, if_true]
  by_cases hq : q < s.scopes.size
  · simp [hq, Bindings.get?_put]
  · simp [hq]

/-- Binding a name takes no name away. -/
theorem isSome_bound?_define (v : Value) {other : Text} (h : (s.bound? r other).isSome) :
    ((s.define q name v).bound? r other).isSome := by
  by_cases hr : r = q
  · subst hr
    rw [bound?_define_self]
    split
    · rfl
    · exact h
  · rw [bound?_define_of_ne v hr]
    exact h

/-- The scope that owns a name binds it. -/
theorem isSome_bound?_of_owner (h : s.owner r name = some q) : (s.bound? q name).isSome := by
  have hfrom : ∀ n r found, resolveFrom s.scopes name n r = some found →
      (s.bound? found.1 name).isSome := by
    intro n
    induction n with
    | zero =>
      intro r found hfound
      cases hfound
    | succ n ih =>
      intro r found hfound
      rw [resolveFrom] at hfound
      split at hfound
      · cases hfound
      · rename_i scope hscope
        split at hfound
        · rename_i v hv
          obtain rfl := Option.some.inj hfound
          simp [bound?, hscope, hv]
        · split at hfound
          · cases hfound
          · exact ih _ _ hfound
  obtain ⟨found, hfound, rfl⟩ := Option.map_eq_some_iff.mp h
  exact hfrom _ _ _ hfound

end Scopes

/-- Of the scopes below a number, all are still inside the same scopes and have lost no name. Those
other than a given one have gained none, and changed the value of one only where a change of that
name in that scope is allowed. -/
structure ScopesKept (n : Nat) (en : ScopeRef) (changes : Text → ScopeRef → Prop)
    (s s' : Store) : Prop where
  size : s.scopes.size ≤ s'.scopes.size
  outer : ∀ r < n, s'.outer? r = s.outer? r
  lost : ∀ r < n, ∀ name, (s.bound? r name).isSome → (s'.bound? r name).isSome
  gained : ∀ r < n, r ≠ en → ∀ name, (s'.bound? r name).isSome → (s.bound? r name).isSome
  changed : ∀ r < n, r ≠ en → ∀ name, s'.bound? r name ≠ s.bound? r name → changes name r

namespace ScopesKept

variable {n : Nat} {en : ScopeRef} {changes : Text → ScopeRef → Prop} {s s' s'' : Store}

/-- Scopes that are the same are kept. -/
theorem of_scopes_eq (h : s'.scopes = s.scopes) : ScopesKept n en changes s s' where
  size := Nat.le_of_eq (congrArg Array.size h.symm)
  outer r _ := outer?_congr h
  lost r _ name hname := by rwa [bound?_congr h]
  gained r _ _ name hname := by rwa [bound?_congr h] at hname
  changed r _ _ name hname := absurd (bound?_congr h) hname

/-- Scopes that are kept twice are kept. -/
theorem trans (h : ScopesKept n en changes s s') (h' : ScopesKept n en changes s' s'') :
    ScopesKept n en changes s s'' where
  size := Nat.le_trans h.size h'.size
  outer r hr := (h'.outer r hr).trans (h.outer r hr)
  lost r hr name hname := h'.lost r hr name (h.lost r hr name hname)
  gained r hr hne name hname := h.gained r hr hne name (h'.gained r hr hne name hname)
  changed r hr hne name hname := by
    by_cases hfirst : s'.bound? r name = s.bound? r name
    · exact h'.changed r hr hne name fun hsecond => hname (hsecond.trans hfirst)
    · exact h.changed r hr hne name hfirst

/-- A new scope keeps the older ones. -/
theorem newScope (hn : n ≤ s.scopes.size) (outer : Option ScopeRef) (bindings : Bindings) :
    ScopesKept n en changes s (s.newScope outer bindings).2 where
  size := by simp [Store.newScope]
  outer r hr := outer?_newScope _ _ (Nat.lt_of_lt_of_le hr hn)
  lost r hr name hname := by rwa [bound?_newScope _ _ (Nat.lt_of_lt_of_le hr hn)]
  gained r hr _ name hname := by rwa [bound?_newScope _ _ (Nat.lt_of_lt_of_le hr hn)] at hname
  changed r hr _ name hname := absurd (bound?_newScope _ _ (Nat.lt_of_lt_of_le hr hn)) hname

/-- An older scope other than the given one is neither that one nor a newer one. -/
theorem ne_of_old {r q : ScopeRef} (hr : r < n) (hne : r ≠ en) (hq : q = en ∨ n ≤ q) : r ≠ q := by
  rcases hq with rfl | hq
  · exact hne
  · exact Nat.ne_of_lt (Nat.lt_of_lt_of_le hr hq)

/-- A name is bound in the given scope or in a newer one. -/
theorem define {q : ScopeRef} (hq : q = en ∨ n ≤ q) (name : Text) (v : Value) :
    ScopesKept n en changes s (s.define q name v) where
  size := by simp [Store.define]
  outer r _ := outer?_define v
  lost r _ other hother := isSome_bound?_define v hother
  gained r hr hne other hother := by rwa [bound?_define_of_ne v (ne_of_old hr hne hq)] at hother
  changed r hr hne other hother :=
    absurd (bound?_define_of_ne v (ne_of_old hr hne hq) other) hother

/-- A name is changed in the scope that owns it. -/
theorem assign {r q : ScopeRef} {name : Text} (howner : s.owner r name = some q)
    (hchanges : changes name q) (v : Value) : ScopesKept n en changes s (s.define q name v) where
  size := by simp [Store.define]
  outer r _ := outer?_define v
  lost r _ other hother := isSome_bound?_define v hother
  gained r _ _ other hother := by
    by_cases hr : r = q ∧ other = name
    · obtain ⟨rfl, rfl⟩ := hr
      exact isSome_bound?_of_owner howner
    · by_cases hrq : r = q
      · subst hrq
        rwa [bound?_define_self, if_neg fun h => hr ⟨rfl, h.1⟩] at hother
      · rwa [bound?_define_of_ne v hrq] at hother
  changed r _ _ other hother := by
    by_cases hr : r = q
    · subst hr
      rw [bound?_define_self] at hother
      by_cases hname : other = name
      · exact hname ▸ hchanges
      · rw [if_neg fun h => hname h.1] at hother
        exact absurd rfl hother
    · exact absurd (bound?_define_of_ne v hr other) hother

end ScopesKept

end Store

/-- What a class form learns on the way leaves the scopes alone. -/
theorem Frame.Learns.scopes {s s' : Store} {v maker : Value} {frame : Frame} {methods : Methods}
    {plan : ClassPlan} (h : frame.Learns s v maker methods plan s') : s'.scopes = s.scopes := by
  cases h with
  | maker => rfl
  | method => exact Store.scopes_nameClosure ..

/-- The scope that a frame goes on in. -/
def Frame.scope? : Frame → Option ScopeRef
  | .operator _ _ scope | .operand _ _ _ _ scope | .branch _ _ scope | .loopTest _ _ scope
  | .loopBody _ _ scope | .sequence _ scope | .define _ scope | .assign _ _ scope => some scope
  | .classMaker _ plan | .methodName _ _ _ _ plan | .methodFunction _ _ _ _ plan => some plan.scope
  | .application _ | .traced _ | .construct _ | .builtin _ => none

namespace Machine

/-- The scopes that a state works in and that its frames go on in. -/
def places : Machine → List ScopeRef
  | evaluating _ scope stack _ => scope :: stack.filterMap Frame.scope?
  | calling _ _ stack _ | giving _ stack _ | raising _ stack _ => stack.filterMap Frame.scope?

section Steps

variable {limits : Limits} {m m' : Machine} {r : ScopeRef}

/-- After the reply of a builtin only the frames go on in scopes. -/
theorem places_reply (r : Reply) (stack : List Frame) :
    (reply r stack).places = stack.filterMap Frame.scope? := by
  cases r <;> rfl

/-- A step goes on in the scopes that are worked in, or in the scope that it opens. -/
theorem Next.places (h : Next limits m m') (hr : r ∈ m'.places) :
    r ∈ m.places ∨ r = m.store.scopes.size ∧ r < m'.store.scopes.size := by
  cases h with
  | exceeded | literal | word | unbound | nothing | function | malformed =>
    exact .inl (List.mem_cons_of_mem _ hr)
  | operator => exact .inl (by simpa [Machine.places, Frame.scope?] using hr)
  | form hopens =>
    left
    cases hopens <;> simpa [Machine.places, Frame.scope?] using hr
  | body =>
    rcases List.mem_cons.mp hr with rfl | hr
    · exact .inr ⟨rfl, by simp [Machine.store, Store.newScope]⟩
    · exact .inl hr
  | make | uncallable => exact .inl hr
  | builtin | resume => exact .inl (by rwa [places_reply] at hr)
  | operand hcollects | call hcollects | tracedCall hcollects =>
    left
    cases hcollects <;> simp_all [Machine.places, Frame.scope?]
  | goOn hcontinues =>
    left
    cases hcontinues <;> simp_all [Machine.places, Frame.scope?]
  | member hlearns | madeClass hlearns =>
    left
    cases hlearns <;> simp_all [Machine.places, Frame.scope?]
  | leave | traced | define | assign | give | rejected | locate | tracedFault | pass =>
    left
    simp only [Machine.places] at hr ⊢
    exact ((List.sublist_cons_self _ _).filterMap Frame.scope?).subset hr

/-- The reply of a builtin pushes no frame of a `set`. -/
theorem suffix_of_reply {name : Text} {p : Position} {scope : ScopeRef} {r : Reply}
    {below stack : List Frame} (h : .assign name p scope :: below <:+ (reply r stack).stack) :
    .assign name p scope :: below <:+ stack := by
  cases r with
  | await => simpa [reply, Machine.stack, List.suffix_cons_iff] using h
  | _ => exact h

/-- A frame that assigns to a name is there only while a `set` of that name is evaluated. -/
theorem Next.assign_frame (h : Next limits m m') {name : Text} {p : Position} {scope : ScopeRef}
    {below : List Frame} (hsuffix : .assign name p scope :: below <:+ m'.stack) :
    .assign name p scope :: below <:+ m.stack ∨
      ∃ q e stack s,
        m = evaluating (.apply (.word Form.assign.label q) [.word name p, e]) scope stack s ∧
          below = .application (.word Form.assign.label q) :: stack := by
  cases h with
  | exceeded | literal | word | unbound | body | uncallable => exact .inl hsuffix
  | nothing | function | malformed | operator | make =>
    exact .inl (by simpa [stack, List.suffix_cons_iff] using hsuffix)
  | @form _ q _ _ stack s e _ hopens =>
    cases hopens with
    | assign other p' e =>
      simp only [Machine.stack, List.suffix_cons_iff, List.cons.injEq, Frame.assign.injEq,
        reduceCtorEq, false_and, false_or] at hsuffix
      rcases hsuffix with ⟨⟨rfl, rfl, rfl⟩, rfl⟩ | hsuffix
      · exact .inr ⟨q, e, stack, s, rfl, rfl⟩
      · exact .inl hsuffix
    | _ => exact .inl (by simpa [Machine.stack, List.suffix_cons_iff] using hsuffix)
  | builtin => exact .inl (suffix_of_reply hsuffix)
  | resume => exact .inl ((suffix_of_reply hsuffix).trans (List.suffix_cons _ _))
  | operand | tracedCall | member =>
    exact .inl (by simp_all [Machine.stack, List.suffix_cons_iff])
  | goOn hcontinues =>
    cases hcontinues <;> exact .inl (by simp_all [Machine.stack, List.suffix_cons_iff])
  | leave | call | traced | define | assign | madeClass | give | rejected | locate | tracedFault
  | pass =>
    exact .inl (hsuffix.trans (List.suffix_cons _ _))

/-- What a step does to the scopes of a store. -/
theorem Next.scopesKept {n : Nat} {en : ScopeRef} {changes : Text → ScopeRef → Prop}
    (h : Next limits m m') (hn : n ≤ m.store.scopes.size)
    (hplaces : ∀ r ∈ m.places, r = en ∨ n ≤ r)
    (hchanges : ∀ v name p scope stack s r, m = giving v (.assign name p scope :: stack) s →
      s.owner scope name = some r → changes name r) :
    m.store.ScopesKept n en changes m'.store := by
  cases h with
  | body => exact .newScope hn _ _
  | @builtin b home args stack s =>
    rw [store_reply]
    exact .of_scopes_eq (b.run_answers s args).sameOutline.scopes
  | @resume v pending stack s =>
    rw [store_reply]
    exact .of_scopes_eq (pending.sameOutline_resume s v).scopes
  | @define v name scope stack s =>
    have hscope : scope = en ∨ n ≤ scope := hplaces scope (by simp [Machine.places, Frame.scope?])
    exact (Store.ScopesKept.of_scopes_eq (s.scopes_nameClosure v name)).trans
      (.define hscope name v)
  | assign howner => exact .assign howner (hchanges _ _ _ _ _ _ _ rfl howner) _
  | member hlearns => exact .of_scopes_eq hlearns.scopes
  | @madeClass v maker frame methods plan stack s s' hlearns =>
    have hscope : plan.scope = en ∨ n ≤ plan.scope := by
      refine hplaces plan.scope ?_
      cases hlearns <;> simp [Machine.places, Frame.scope?]
    have hclass : s.ScopesKept n en changes (s'.newClass ⟨plan.name, maker, methods⟩).2 :=
      .of_scopes_eq hlearns.scopes
    exact hclass.trans (.define hscope plan.name _)
  | tracedCall | traced | tracedFault => exact .of_scopes_eq (Store.scopes_record ..)
  | _ => exact .of_scopes_eq rfl

end Steps

/-- A run comes to a change of a name in a scope: a `set` of the name is evaluated, the value for it
comes back, and the name is then found in that scope. -/
def AssignsIn (limits : Limits) (m : Machine) (name : Text) (r : ScopeRef) : Prop :=
  ∃ q p e scope stack s v s',
    Reaches limits m
      (evaluating (.apply (.word Form.assign.label q) [.word name p, e]) scope stack s) ∧
    Reaches limits (evaluating (.apply (.word Form.assign.label q) [.word name p, e]) scope stack s)
      (giving v (.assign name p scope :: .application (.word Form.assign.label q) :: stack) s') ∧
    s'.owner scope name = some r

/-- Behind every frame that assigns there is the evaluation of a `set` that put it there. -/
theorem Reaches.exists_assign {limits : Limits} {m m' : Machine} (h : Reaches limits m m')
    (hm : m.stack = []) {name : Text} {p : Position} {scope : ScopeRef} {below : List Frame}
    (hsuffix : .assign name p scope :: below <:+ m'.stack) :
    ∃ q e stack s, below = .application (.word Form.assign.label q) :: stack ∧
      Reaches limits m
        (evaluating (.apply (.word Form.assign.label q) [.word name p, e]) scope stack s) ∧
      Reaches limits
        (evaluating (.apply (.word Form.assign.label q) [.word name p, e]) scope stack s) m' := by
  induction h with
  | refl =>
    rw [hm] at hsuffix
    exact nomatch List.suffix_nil.mp hsuffix
  | @tail m₁ m₂ hreaches hstep ih =>
    rcases (next_of_step hstep).assign_frame hsuffix with hbefore | ⟨q, e, stack, s, rfl, rfl⟩
    · obtain ⟨q, e, stack, s, hbelow, hset, hafter⟩ := ih hbefore
      exact ⟨q, e, stack, s, hbelow, hset, hafter.tail hstep⟩
    · exact ⟨q, e, stack, s, rfl, hreaches, reaches_of_step hstep⟩

/-- All along the evaluation of an expression in a scope, the scopes that were there before are
kept, up to names that are added to that scope and changes that are assignments of the
evaluation. -/
theorem Reaches.scopesKept {limits : Limits} {e : Expr} {en : ScopeRef} {s : Store} {m : Machine}
    (h : Reaches limits (evaluating e en [] s) m) :
    s.ScopesKept s.scopes.size en (AssignsIn limits (evaluating e en [] s)) m.store := by
  suffices hboth : (∀ r ∈ m.places, r = en ∨ s.scopes.size ≤ r) ∧
      s.ScopesKept s.scopes.size en (AssignsIn limits (evaluating e en [] s)) m.store from hboth.2
  induction h with
  | refl => exact ⟨by simp [places], .of_scopes_eq rfl⟩
  | @tail m₁ m₂ hreaches hstep ih =>
    obtain ⟨hplaces, hkept⟩ := ih
    have hnext := next_of_step hstep
    refine ⟨fun r hr => ?_, hkept.trans (hnext.scopesKept hkept.size hplaces ?_)⟩
    · rcases hnext.places hr with hr | ⟨rfl, -⟩
      · exact hplaces r hr
      · exact .inr hkept.size
    · rintro v name p scope stack s₁ r rfl howner
      obtain ⟨q, e₁, stack₁, s₂, rfl, hset, hafter⟩ :=
        Reaches.exists_assign hreaches rfl (List.suffix_refl (.assign name p scope :: stack))
      exact ⟨q, p, e₁, scope, stack₁, s₂, v, s₁, hset, hafter, howner⟩

end Machine

/-- The scopes after an evaluation. -/
theorem scopesKept_of_evaluate {limits : Limits} {fuel : Nat} {e : Expr} {en : ScopeRef} {s : Store}
    {o : Outcome} (h : evaluate limits fuel e en s = some o) :
    s.ScopesKept s.scopes.size en (Machine.AssignsIn limits (.evaluating e en [] s)) o.store := by
  obtain ⟨m, hreaches, -, hstore⟩ := Machine.exists_end_of_run h
  rw [← hstore]
  exact hreaches.scopesKept

/-- After an evaluation, the scopes that were there before are inside the same scopes as before.
Those other than the scope of the evaluation bind the same names, and a name there has another value
only if a `set` of that name was evaluated that found it there. The scope of the evaluation has lost
no name. So a program that is run inside another scope adds no name to that one and takes none
away. -/
theorem scopes_of_evaluate (limits : Limits) (s : Store) :
    (∀ fuel e en o, evaluate limits fuel e en s = some o →
      s.scopes.size ≤ o.store.scopes.size ∧
      (∀ r < s.scopes.size, o.store.outer? r = s.outer? r) ∧
      (∀ r < s.scopes.size, r ≠ en → ∀ name,
        ((o.store.bound? r name).isSome ↔ (s.bound? r name).isSome) ∧
        (o.store.bound? r name ≠ s.bound? r name →
          Machine.AssignsIn limits (.evaluating e en [] s) name r)) ∧
      ∀ name, (s.bound? en name).isSome → (o.store.bound? en name).isSome) ∧
    ∀ fuel src top bindings o, top < s.scopes.size →
      execute limits fuel src (s.newScope (some top) bindings).1
        (s.newScope (some top) bindings).2 = some o →
      ∀ name, (o.store.bound? top name).isSome ↔ (s.bound? top name).isSome := by
  constructor
  · intro fuel e en o ho
    have hkept := scopesKept_of_evaluate ho
    refine ⟨hkept.size, hkept.outer, ?_, ?_⟩
    · intro r hr hne name
      exact ⟨⟨hkept.gained r hr hne name, hkept.lost r hr name⟩, hkept.changed r hr hne name⟩
    · intro name hname
      by_cases hen : en < s.scopes.size
      · exact hkept.lost en hen name hname
      · simp [Store.bound?, hen] at hname
  · intro fuel src top bindings o htop ho name
    rw [← Store.bound?_newScope (some top) bindings htop]
    unfold execute at ho
    split at ho
    · obtain rfl := Option.some.inj ho
      exact Iff.rfl
    · have hkept := scopesKept_of_evaluate ho
      have hold : top < (s.newScope (some top) bindings).2.scopes.size := by
        simp only [Store.newScope, Array.size_push]
        exact Nat.lt_succ_of_lt htop
      exact ⟨hkept.gained top hold (Nat.ne_of_lt htop) name, hkept.lost top hold name⟩

/-- A function that a builtin calls sets a name of the top scope: the name keeps its place there,
and the `set` is found in the run. -/
theorem scopes_of_evaluate_map :
    ∃ e o, parse "map(array(5), fun(x, set(print, x)))" = .ok e ∧
      evaluate ⟨none, none⟩ 100 e 1 (Store.initial (.fresh none) false).2 = some o ∧
      (o.store.bound? 0 "print").isSome ∧
      Machine.AssignsIn ⟨none, none⟩ (.evaluating e 1 [] (Store.initial (.fresh none) false).2)
        "print" 0 := by
  have hknown : ((parse "map(array(5), fun(x, set(print, x)))").toOption.any fun e =>
      (evaluate ⟨none, none⟩ 100 e 1 (Store.initial (.fresh none) false).2).any fun o =>
        o.store.bound? 0 "print" ≠
          (Store.initial (.fresh none) false).2.bound? 0 "print") = true := by
    decide +kernel
  cases hparse : parse "map(array(5), fun(x, set(print, x)))" with
  | error fault =>
    rw [hparse] at hknown
    exact nomatch hknown
  | ok e =>
    rw [hparse, Except.toOption, Option.any_some] at hknown
    obtain ⟨o, ho, hchanged⟩ := (Option.any_eq_true ..).mp hknown
    have htop : 0 < (Store.initial (.fresh none) false).2.scopes.size := by decide +kernel
    have hscopes := ((scopes_of_evaluate _ _).1 100 e 1 o ho).2.2.1 0 htop (by decide) "print"
    exact ⟨e, o, rfl, ho, hscopes.1.mpr (by decide +kernel), hscopes.2 (of_decide_eq_true hchanged)⟩

end TinyScript
