import TinyScript.Proofs.Layers

/-!
# What a program leaves behind

All that a run evaluates is part of its program or of a function that was there before. So a program
without `set` changes no binding of the scopes that were there. However it ends, the nesting depth
is what it was before, and calls are recorded if they were before.
-/

namespace TinyScript

namespace Expr

/-- Whether an expression is a given word. -/
def isWord (name : Text) : Expr → Bool
  | word w _ => w = name
  | _ => false

mutual

/-- Whether a word is applied somewhere in an expression. -/
def applies (name : Text) : Expr → Bool
  | apply op args => op.isWord name || op.applies name || appliesAny name args
  | _ => false

/-- Whether a word is applied somewhere in some expressions. -/
def appliesAny (name : Text) : List Expr → Bool
  | [] => false
  | e :: rest => e.applies name || appliesAny name rest

end

/-- A word is applied in none of some expressions exactly if it is applied in no single one. -/
theorem appliesAny_eq_false {name : Text} {es : List Expr} :
    appliesAny name es = false ↔ ∀ e ∈ es, e.applies name = false := by
  induction es with
  | nil => simp [appliesAny]
  | cons e es ih => simp [appliesAny, ih]

/-- A property of expressions that passes on to their parts. -/
structure Inherited (P : Expr → Prop) : Prop where
  operator : ∀ op args, P (.apply op args) → P op
  argument : ∀ op args, P (.apply op args) → ∀ e ∈ args, P e

/-- Where a word is not applied, it is not applied in any part. -/
theorem inherited_applies (name : Text) : Inherited fun e => e.applies name = false where
  operator op args h := by
    simp only [applies, Bool.or_eq_false_iff] at h
    exact h.1.2
  argument op args h := by
    simp only [applies, Bool.or_eq_false_iff] at h
    exact appliesAny_eq_false.mp h.2

end Expr

/-- The expressions that a class form still has to evaluate. -/
def ClassPlan.exprs (plan : ClassPlan) : List Expr :=
  plan.members.flatMap fun member => [member.1, member.2]

/-- The expressions that a frame still has to evaluate. -/
def Frame.exprs : Frame → List Expr
  | .operator _ args _ => args
  | .operand _ _ _ rest _ | .sequence rest _ => rest
  | .branch e e' _ | .loopTest e e' _ | .loopBody e e' _ => [e, e']
  | .classMaker _ plan | .methodFunction _ _ _ _ plan => plan.exprs
  | .methodName _ function _ _ plan => function :: plan.exprs
  | .application _ | .traced _ | .define _ _ | .assign _ _ _ | .construct _ | .builtin _ => []

/-- The expression that a state is working on. -/
def Machine.expr? : Machine → Option Expr
  | evaluating e _ _ _ => some e
  | _ => none

/-- A state calls a closure. -/
def Machine.Calls (m : Machine) (c : Closure) : Prop :=
  ∃ r args stack s, m = .calling (.closure r) args stack s ∧ s.closures[r]? = some c

/-- All expressions that a state works on or still has to evaluate have one property, and the bodies
of all closures have another one. -/
structure Machine.MadeOf (P Q : Expr → Prop) (m : Machine) : Prop where
  expr : ∀ e, m.expr? = some e → P e
  stack : ∀ frame ∈ m.stack, ∀ e ∈ frame.exprs, P e
  closures : ∀ c ∈ m.store.closures, Q c.body

namespace Machine

variable {limits : Limits} {m m' : Machine} {P Q : Expr → Prop}

/-- A closure that is called is in the store. -/
theorem Calls.mem {c : Closure} (h : m.Calls c) : c ∈ m.store.closures := by
  obtain ⟨r, args, stack, s, rfl, hc⟩ := h
  exact Array.mem_of_getElem? hc

/-- A property that passes on to parts passes on to the names and functions of members. -/
theorem inherited_members (hP : Expr.Inherited P) {es : List Expr} {found : List (Expr × Expr)}
    (h : members es = .ok found) (hes : ∀ e ∈ es, P e) :
    ∀ member ∈ found, P member.1 ∧ P member.2 := by
  fun_induction members es generalizing found with
  | case1 =>
    obtain rfl := Except.ok.inj h
    exact List.forall_mem_nil _
  | case2 p name function rest ih =>
    obtain ⟨hfirst, hrest⟩ := List.forall_mem_cons.mp hes
    cases hmembers : members rest with
    | error q =>
      rw [hmembers] at h
      cases h
    | ok more =>
      rw [hmembers] at h
      obtain rfl := Except.ok.inj h
      have hargs := hP.argument _ _ hfirst
      exact List.forall_mem_cons.mpr ⟨⟨hargs name (by simp), hargs function (by simp)⟩,
        ih hmembers hrest⟩
  | case3 | case4 => cases h

/-- A property that passes on to parts passes on to what a form evaluates first and to what it still
has to evaluate. -/
theorem inherited_opens (hP : Expr.Inherited P) {form : Form} {scope : ScopeRef} {args : List Expr}
    {e : Expr} {frame : Frame} (h : form.Opens scope args e frame) (hargs : ∀ e ∈ args, P e) :
    P e ∧ ∀ e ∈ frame.exprs, P e := by
  cases h with
  | branch | loop | sequence | define | assign => simp_all [Frame.exprs]
  | classForm name p maker hmembers =>
    simp only [List.forall_mem_cons] at hargs
    refine ⟨hargs.2.1, fun e he => ?_⟩
    obtain ⟨member, hmember, he⟩ := List.mem_flatMap.mp he
    have hmember := inherited_members hP hmembers hargs.2.2 member hmember
    simp only [List.mem_cons, List.not_mem_nil, or_false] at he
    rcases he with rfl | rfl
    · exact hmember.1
    · exact hmember.2

/-- The reply of a builtin works on no expression. -/
theorem expr?_reply (r : Reply) (stack : List Frame) : (reply r stack).expr? = none := by
  cases r <;> rfl

/-- The reply of a builtin adds at most a frame that evaluates nothing. -/
theorem exprs_of_mem_stack_reply {r : Reply} {stack : List Frame} {frame : Frame}
    (h : frame ∈ (reply r stack).stack) : frame ∈ stack ∨ frame.exprs = [] := by
  cases r with
  | await f args pending s =>
    rcases List.mem_cons.mp h with rfl | h
    · exact .inr rfl
    · exact .inl h
  | _ => exact .inl h

/-- The expression that is worked on after a step is one of those that were at hand, or a part of
one, or the body of a closure that is called. -/
theorem Next.inherited_expr (h : Next limits m m') (hP : Expr.Inherited P) (hm : m.MadeOf P Q)
    (hcall : ∀ c, m.Calls c → P c.body) {e : Expr} (he : m'.expr? = some e) : P e := by
  cases h with
  | operator =>
    obtain rfl := Option.some.inj he
    exact hP.operator _ _ (hm.expr _ rfl)
  | form hopens =>
    obtain rfl := Option.some.inj he
    exact (inherited_opens hP hopens (hP.argument _ _ (hm.expr _ rfl))).1
  | body hc =>
    obtain rfl := Option.some.inj he
    exact hcall _ ⟨_, _, _, _, rfl, hc⟩
  | builtin | resume =>
    rw [expr?_reply] at he
    exact nomatch he
  | operand hcollects =>
    obtain rfl := Option.some.inj he
    cases hcollects <;> exact hm.stack _ List.mem_cons_self _ (by simp [Frame.exprs])
  | @goOn v _ _ _ _ _ _ hcontinues =>
    obtain rfl := Option.some.inj he
    have hframe := hm.stack _ List.mem_cons_self
    cases hcontinues with
    | branch => split_ifs <;> exact hframe _ (by simp [Frame.exprs])
    | _ => exact hframe _ (by simp [Frame.exprs])
  | member hlearns hmembers =>
    obtain rfl := Option.some.inj he
    have hframe := hm.stack _ List.mem_cons_self
    cases hlearns <;> exact hframe _ (by simp [Frame.exprs, ClassPlan.exprs, hmembers])
  | _ => exact nomatch he

/-- What frames have to evaluate after a step is among the expressions that were at hand, or a part
of one. -/
theorem Next.inherited_stack (h : Next limits m m') (hP : Expr.Inherited P) (hm : m.MadeOf P Q) :
    ∀ frame ∈ m'.stack, ∀ e ∈ frame.exprs, P e := by
  have hstack := hm.stack
  cases h with
  | exceeded | literal | word | unbound | body | uncallable => exact hstack
  | operator =>
    have hargs := hP.argument _ _ (hm.expr _ rfl)
    exact List.forall_mem_cons.mpr ⟨hargs, List.forall_mem_cons.mpr ⟨nofun, hstack⟩⟩
  | form hopens =>
    have hframe := (inherited_opens hP hopens (hP.argument _ _ (hm.expr _ rfl))).2
    exact List.forall_mem_cons.mpr ⟨hframe, List.forall_mem_cons.mpr ⟨nofun, hstack⟩⟩
  | nothing | function | malformed | make => exact List.forall_mem_cons.mpr ⟨nofun, hstack⟩
  | builtin =>
    intro frame hframe e he
    rcases exprs_of_mem_stack_reply hframe with hframe | hframe
    · exact hstack frame hframe e he
    · rw [hframe] at he
      exact nomatch he
  | resume =>
    intro frame hframe e he
    rcases exprs_of_mem_stack_reply hframe with hframe | hframe
    · exact hstack frame (List.mem_cons_of_mem _ hframe) e he
    · rw [hframe] at he
      exact nomatch he
  | operand hcollects =>
    obtain ⟨hframe, hstack⟩ := List.forall_mem_cons.mp hstack
    refine List.forall_mem_cons.mpr ⟨fun e he => ?_, hstack⟩
    cases hcollects <;> exact hframe e (List.mem_cons_of_mem _ he)
  | tracedCall => exact List.forall_mem_cons.mpr ⟨nofun, (List.forall_mem_cons.mp hstack).2⟩
  | goOn hcontinues =>
    obtain ⟨hframe, hbelow⟩ := List.forall_mem_cons.mp hstack
    cases hcontinues with
    | branch => exact hbelow
    | loopTest | loopBody => exact List.forall_mem_cons.mpr ⟨hframe, hbelow⟩
    | sequence | methodName =>
      refine List.forall_mem_cons.mpr ⟨fun e he => ?_, hbelow⟩
      exact hframe e (List.mem_cons_of_mem _ he)
  | member hlearns hmembers =>
    obtain ⟨hframe, hstack⟩ := List.forall_mem_cons.mp hstack
    refine List.forall_mem_cons.mpr ⟨fun e he => ?_, hstack⟩
    cases hlearns <;>
      exact hframe e (by simp_all [Frame.exprs, ClassPlan.exprs])
  | leave | call | traced | define | assign | madeClass | give | rejected | locate | tracedFault
  | pass =>
    exact (List.forall_mem_cons.mp hstack).2

/-- A property that passes on to parts of expressions holds of all that is evaluated after a step,
if it holds of a closure's body where one is called. -/
theorem Next.madeOf (h : Next limits m m') (hP : Expr.Inherited P) (hPQ : ∀ e, P e → Q e)
    (hcall : ∀ c, m.Calls c → P c.body) (hm : m.MadeOf P Q) : m'.MadeOf P Q where
  expr _ he := h.inherited_expr hP hm hcall he
  stack := h.inherited_stack hP hm
  closures c hc := by
    obtain ⟨r, hr⟩ := Array.mem_iff_getElem?.mp hc
    rcases h.closure_origin hr with ⟨old, hold, halike⟩ | ⟨e, hmakes⟩
    · exact halike.body ▸ hm.closures old (Array.mem_of_getElem? hold)
    · cases hmakes with
      | function _ hbody =>
        exact hPQ _ (hP.argument _ _ (hm.expr _ rfl) c.body (List.mem_of_getLast? hbody))

/-- A property that passes on to parts of expressions holds of all that a run evaluates, if it does
so at first. -/
theorem Reaches.madeOf (h : Reaches limits m m') (hP : Expr.Inherited P) (hm : m.MadeOf P P) :
    m'.MadeOf P P :=
  h.invariant (I := MadeOf P P) hm fun _ _ hnext hm =>
    hnext.madeOf hP (fun _ he => he) (fun c hc => hm.closures c hc.mem) hm

end Machine

/-- Whether a frame is the end of an application. -/
def Frame.isApplication : Frame → Bool
  | .application _ => true
  | _ => false

namespace Store

/-- Two stores with the same nesting depth, of which both or none records calls. -/
structure SameDepth (s s' : Store) : Prop where
  depth : s'.depth = s.depth
  events : s'.events.isSome = s.events.isSome

variable (s : Store) (v : Value) (name : Text)

/-- Naming a function leaves depth and recording alone. -/
theorem sameDepth_nameClosure : s.SameDepth (s.nameClosure v name) := by
  cases v <;> exact ⟨rfl, rfl⟩

/-- Recording an event leaves depth and recording alone. -/
theorem sameDepth_record (phase : Phase) : s.SameDepth (s.record phase name) := by
  unfold record
  split
  · rename_i events hevents
    exact ⟨rfl, by rw [hevents]; rfl⟩
  · exact ⟨rfl, rfl⟩

/-- Stores with the same outline have the same depth. -/
theorem SameOutline.sameDepth {s s' : Store} (h : s.SameOutline s') : s.SameDepth s' :=
  ⟨h.depth, by rw [h.events]⟩

end Store

/-- What a class form learns on the way leaves depth and recording alone. -/
theorem Frame.Learns.sameDepth {s s' : Store} {v maker : Value} {frame : Frame} {methods : Methods}
    {plan : ClassPlan} (h : frame.Learns s v maker methods plan s') : s.SameDepth s' := by
  cases h with
  | maker => exact ⟨rfl, rfl⟩
  | method => exact s.sameDepth_nameClosure ..

namespace Machine

variable {limits : Limits} {m m' : Machine}

/-- The number of applications that are under way in a state. -/
def applications (m : Machine) : Nat := m.stack.countP Frame.isApplication

/-- The reply of a builtin begins no application. -/
theorem applications_reply (r : Reply) (stack : List Frame) :
    (reply r stack).applications = stack.countP Frame.isApplication := by
  cases r <;> rfl

/-- The frame of an application counts as one. -/
theorem countP_application (op : Expr) (stack : List Frame) :
    (Frame.application op :: stack).countP Frame.isApplication =
      stack.countP Frame.isApplication + 1 :=
  List.countP_cons_of_pos rfl

/-- The depth counts the applications that are under way, from what it was outside of them, and
calls are recorded or not. -/
structure Balanced (base : Nat) (recorded : Bool) (m : Machine) : Prop where
  depth : m.store.depth = base + m.applications
  events : m.store.events.isSome = recorded

/-- A state stays balanced if neither the depth nor the applications under way change. -/
theorem Balanced.of_sameDepth {base : Nat} {recorded : Bool} (hm : m.Balanced base recorded)
    (hstore : m.store.SameDepth m'.store) (happlications : m'.applications = m.applications) :
    m'.Balanced base recorded where
  depth := by rw [hstore.depth, hm.depth, happlications]
  events := hstore.events.trans hm.events

/-- A state stays balanced if the depth and the applications under way both grow by one. -/
theorem Balanced.enter {base : Nat} {recorded : Bool} {e : Expr} {scope : ScopeRef}
    {stack : List Frame} {s : Store} (hm : (evaluating e scope stack s).Balanced base recorded)
    (hdepth : m'.store.depth = s.depth + 1) (hevents : m'.store.events = s.events)
    (happlications : m'.applications = stack.countP Frame.isApplication + 1) :
    m'.Balanced base recorded where
  depth := by
    rw [hdepth, happlications, ← Nat.add_assoc]
    exact congrArg (· + 1) hm.depth
  events := by
    rw [hevents]
    exact hm.events

/-- A step changes the depth by the applications that begin or end. -/
theorem Next.balanced {base : Nat} {recorded : Bool} (h : Next limits m m')
    (hm : m.Balanced base recorded) : m'.Balanced base recorded := by
  cases h with
  | exceeded | literal | word | unbound | body | uncallable | make | assign =>
    exact hm.of_sameDepth ⟨rfl, rfl⟩ rfl
  | @operator op => exact hm.enter rfl rfl (countP_application op _)
  | nothing | function | malformed => exact hm.enter rfl rfl (countP_application ..)
  | @form form p _ _ stack _ _ _ hopens =>
    have happlications := countP_application (.word form.label p) stack
    cases hopens <;> exact hm.enter rfl rfl happlications
  | @builtin b home args stack s =>
    refine hm.of_sameDepth ?_ (applications_reply ..)
    rw [store_reply]
    exact (b.run_answers s args).sameOutline.sameDepth
  | @resume v pending stack s =>
    refine hm.of_sameDepth ?_ (applications_reply ..)
    rw [store_reply]
    exact (pending.sameOutline_resume s v).sameDepth
  | leave | locate =>
    have hdepth := hm.depth
    refine ⟨?_, hm.events⟩
    simp only [applications, store, stack, countP_application] at hdepth ⊢
    rw [hdepth]
    rfl
  | operand hcollects | call hcollects =>
    cases hcollects <;> exact hm.of_sameDepth ⟨rfl, rfl⟩ rfl
  | tracedCall hcollects =>
    cases hcollects <;> exact hm.of_sameDepth (Store.sameDepth_record ..) rfl
  | traced | tracedFault => exact hm.of_sameDepth (Store.sameDepth_record ..) rfl
  | goOn hcontinues => cases hcontinues <;> exact hm.of_sameDepth ⟨rfl, rfl⟩ rfl
  | give hgives => cases hgives <;> exact hm.of_sameDepth ⟨rfl, rfl⟩ rfl
  | define =>
    have hnamed := Store.sameDepth_nameClosure
    exact hm.of_sameDepth ⟨(hnamed ..).depth, (hnamed ..).events⟩ rfl
  | member hlearns | madeClass hlearns =>
    have hsame := hlearns.sameDepth
    cases hlearns <;> exact hm.of_sameDepth ⟨hsame.depth, hsame.events⟩ rfl
  | rejected hrejects => cases hrejects <;> exact hm.of_sameDepth ⟨rfl, rfl⟩ rfl
  | @pass fault frame stack s hsilent =>
    cases frame with
    | application | traced => exact hsilent.elim
    | _ => exact hm.of_sameDepth ⟨rfl, rfl⟩ rfl

/-- When a run has ended no application is under way. -/
theorem Balanced.of_run {base fuel : Nat} {recorded : Bool} {o : Outcome}
    (hm : m.Balanced base recorded) (h : run limits fuel m = some o) :
    o.store.depth = base ∧ o.store.events.isSome = recorded := by
  obtain ⟨m', hreaches, hstack, hstore⟩ := exists_end_of_run h
  have hend := hreaches.invariant (I := Balanced base recorded) hm fun _ _ => Next.balanced
  have hnone : m'.applications = 0 := by rw [applications, hstack, List.countP_nil]
  rw [← hstore]
  exact ⟨by rw [hend.depth, hnone, Nat.add_zero], hend.events⟩

end Machine

/-- No `set` is applied in a program. -/
def SetFree (src : Text) : Prop := ∀ e, parse src = .ok e → e.applies Form.assign.label = false

instance (src : Text) : Decidable (SetFree src) :=
  match h : parse src with
  | .ok e =>
    decidable_of_iff (e.applies Form.assign.label = false)
      ⟨fun he _ he' => Except.ok.inj (h.symm.trans he') ▸ he, fun hsrc => hsrc e h⟩
  | .error _ => isTrue fun _ he => nomatch h.symm.trans he

section Programs

variable {limits : Limits} {fuel : Nat} {src : Text} {scope : ScopeRef} {s : Store} {o : Outcome}

/-- However a program ends, the depth is what it was before, and calls are recorded if they were
before. -/
theorem sameDepth_of_execute (h : execute limits fuel src scope s = some o) :
    s.SameDepth o.store := by
  unfold execute at h
  split at h
  · obtain rfl := Option.some.inj h
    exact ⟨rfl, rfl⟩
  · rename_i e _
    let start := Machine.evaluating e scope [] { s with steps := 0 }
    have hstart : start.Balanced s.depth s.events.isSome := ⟨rfl, rfl⟩
    obtain ⟨hdepth, hevents⟩ := hstart.of_run h
    exact ⟨hdepth, hevents⟩

/-- A program without `set` changes nothing in the scopes that were there, other than the one that
it runs in, if no function that is there sets anything. -/
theorem scopes_of_execute (h : execute limits fuel src scope s = some o) (hsrc : SetFree src)
    (hclosures : ∀ c ∈ s.closures, c.body.applies Form.assign.label = false) {r : ScopeRef}
    (hr : r < s.scopes.size) (hne : r ≠ scope) :
    r < o.store.scopes.size ∧ o.store.outer? r = s.outer? r ∧
      ∀ name, o.store.bound? r name = s.bound? r name := by
  unfold execute at h
  split at h
  · obtain rfl := Option.some.inj h
    exact ⟨hr, rfl, fun _ => rfl⟩
  · rename_i e he
    have hkept := scopesKept_of_evaluate h
    refine ⟨Nat.lt_of_lt_of_le hr hkept.size, hkept.outer r hr, fun name => ?_⟩
    by_contra hchanged
    obtain ⟨q, p, e', scope', stack, s', v, s'', hset, -⟩ := hkept.changed r hr hne name hchanged
    let setFree : Expr → Prop := fun e => e.applies Form.assign.label = false
    have hstart : (Machine.evaluating e scope [] { s with steps := 0 }).MadeOf setFree setFree :=
      ⟨fun _ heq => Option.some.inj heq ▸ hsrc e he, List.forall_mem_nil _, hclosures⟩
    have hmade := hset.madeOf (Expr.inherited_applies Form.assign.label) hstart
    have happlies : setFree (.apply (.word Form.assign.label q) [.word name p, e']) :=
      hmade.expr _ rfl
    simp only [setFree, Expr.applies, Expr.isWord, decide_true, Bool.true_or,
      Bool.true_eq_false] at happlies

end Programs

end TinyScript
