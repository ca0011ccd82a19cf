import TinyScript.Proofs.MirroredBuiltins

/-!
# Runs in stores that mirror each other

Two states of the machine mirror each other if they work on the same things, in places that
correspond, and their stores mirror each other. Then they do so after a step, and at the end. The
one thing that is not mirrored is chance, so neither state may ask for it.
-/

namespace TinyScript

/-- A class form that is under way in the corresponding scope. -/
def Renaming.plan (r : Renaming) (plan : ClassPlan) : ClassPlan :=
  { plan with scope := r.scope plan.scope }

/-- Frames with the same expressions, values that correspond and scopes that correspond. -/
inductive Frame.Mirrors (r : Renaming) : Frame → Frame → Prop where
  | application (op : Expr) : Mirrors r (.application op) (.application op)
  | operator (op : Expr) (args : List Expr) (scope : ScopeRef) :
      Mirrors r (.operator op args scope) (.operator op args (r.scope scope))
  | operand (f : Value) (op : Expr) (done : List Value) (rest : List Expr) (scope : ScopeRef) :
      Mirrors r (.operand f op done rest scope)
        (.operand (r.value f) op (done.map r.value) rest (r.scope scope))
  | traced (name : Text) : Mirrors r (.traced name) (.traced name)
  | branch (yes no : Expr) (scope : ScopeRef) :
      Mirrors r (.branch yes no scope) (.branch yes no (r.scope scope))
  | loopTest (test body : Expr) (scope : ScopeRef) :
      Mirrors r (.loopTest test body scope) (.loopTest test body (r.scope scope))
  | loopBody (test body : Expr) (scope : ScopeRef) :
      Mirrors r (.loopBody test body scope) (.loopBody test body (r.scope scope))
  | sequence (rest : List Expr) (scope : ScopeRef) :
      Mirrors r (.sequence rest scope) (.sequence rest (r.scope scope))
  | define (name : Text) (scope : ScopeRef) :
      Mirrors r (.define name scope) (.define name (r.scope scope))
  | assign (name : Text) (p : Position) (scope : ScopeRef) :
      Mirrors r (.assign name p scope) (.assign name p (r.scope scope))
  | classMaker (p : Position) (plan : ClassPlan) :
      Mirrors r (.classMaker p plan) (.classMaker p (r.plan plan))
  | methodName (p : Position) (function : Expr) (maker : Value) {methods methods' : Methods}
      (h : methods.Mirrors r methods') (plan : ClassPlan) :
      Mirrors r (.methodName p function maker methods plan)
        (.methodName p function (r.value maker) methods' (r.plan plan))
  | methodFunction (name : Text) (p : Position) (maker : Value) {methods methods' : Methods}
      (h : methods.Mirrors r methods') (plan : ClassPlan) :
      Mirrors r (.methodFunction name p maker methods plan)
        (.methodFunction name p (r.value maker) methods' (r.plan plan))
  | construct (created : Value) : Mirrors r (.construct created) (.construct (r.value created))
  | builtin (pending : Pending) : Mirrors r (.builtin pending) (.builtin (r.pending pending))

/-- States that work on the same things, in places that correspond. -/
inductive Machine.Mirrors (r : Renaming) : Machine → Machine → Prop where
  | evaluating {stack stack' : List Frame} {s s' : Store} (e : Expr) (scope : ScopeRef)
      (hstack : List.Forall₂ (Frame.Mirrors r) stack stack') (h : s.Mirrors r s') :
      Mirrors r (.evaluating e scope stack s) (.evaluating e (r.scope scope) stack' s')
  | calling {stack stack' : List Frame} {s s' : Store} (f : Value) (args : List Value)
      (hstack : List.Forall₂ (Frame.Mirrors r) stack stack') (h : s.Mirrors r s') :
      Mirrors r (.calling f args stack s) (.calling (r.value f) (args.map r.value) stack' s')
  | giving {stack stack' : List Frame} {s s' : Store} (v : Value)
      (hstack : List.Forall₂ (Frame.Mirrors r) stack stack') (h : s.Mirrors r s') :
      Mirrors r (.giving v stack s) (.giving (r.value v) stack' s')
  | raising {stack stack' : List Frame} {s s' : Store} (fault : Fault)
      (hstack : List.Forall₂ (Frame.Mirrors r) stack stack') (h : s.Mirrors r s') :
      Mirrors r (.raising fault stack s) (.raising fault stack' s')

/-- The same fault, or values that correspond, and stores that mirror each other. -/
inductive Outcome.Mirrors (r : Renaming) : Outcome → Outcome → Prop where
  | value {s s' : Store} (v : Value) (h : s.Mirrors r s') :
      Mirrors r ⟨.ok v, s⟩ ⟨.ok (r.value v), s'⟩
  | fault {s s' : Store} (fault : Fault) (h : s.Mirrors r s') :
      Mirrors r ⟨.error fault, s⟩ ⟨.error fault, s'⟩

namespace Machine

/-- The state is a call of the builtin that asks for chance. -/
def callsRandom : Machine → Bool
  | calling (.builtin .random _) _ _ _ => true
  | _ => false

namespace Mirrors

variable {r : Renaming} {stack stack' : List Frame} {s s' : Store}

section Parts

variable (hstack : List.Forall₂ (Frame.Mirrors r) stack stack') (h : s.Mirrors r s')
include hstack h

/-- Entering an application of corresponding values leads to states that mirror each other. -/
theorem enter (f : Value) (op : Expr) (args : List Value) :
    (enter f op args stack s).Mirrors r
      (Machine.enter (r.value f) op (args.map r.value) stack' s') := by
  have hname : callName s' (r.value f) op = callName s f op := by
    cases f with
    | closure c =>
      simp only [Renaming.value, callName]
      rcases h.closures.found c with ⟨hnone, hnone'⟩ | ⟨c, _, hc, hc', rfl⟩
      · rw [hnone, hnone']
      · rw [hc, hc']
        rfl
    | classRef c => exact h.className c
    | _ => rfl
  unfold Machine.enter
  rw [h.events, hname]
  split_ifs
  · exact .calling f args (.cons (.traced _) hstack) (h.record .begins _)
  · exact .calling f args hstack h

/-- Evaluating the operands of corresponding values leads to states that mirror each other. -/
theorem operands (f : Value) (op : Expr) (done : List Value) (rest : List Expr) (scope : ScopeRef) :
    (operands f op done rest scope stack s).Mirrors r
      (Machine.operands (r.value f) op (done.map r.value) rest (r.scope scope) stack' s') := by
  cases rest with
  | nil =>
    have henter := enter hstack h f op done.reverse
    rwa [List.map_reverse] at henter
  | cons e rest => exact .evaluating e scope (.cons (.operand f op done rest scope) hstack) h

/-- Going on with the next member of a class leads to states that mirror each other. -/
theorem nextMember (maker : Value) {methods methods' : Methods}
    (hmethods : methods.Mirrors r methods') (plan : ClassPlan) :
    (nextMember maker methods plan stack s).Mirrors r
      (Machine.nextMember (r.value maker) methods' (r.plan plan) stack' s') := by
  unfold Machine.nextMember
  have hplan : (r.plan plan).members = plan.members := rfl
  rw [hplan]
  cases hmembers : plan.members with
  | nil =>
    let info : ClassInfo := ⟨plan.name, maker, methods⟩
    let info' : ClassInfo := ⟨plan.name, r.value maker, methods'⟩
    have hinfo : info.Mirrors r info' := ⟨rfl, rfl, hmethods⟩
    have hdefine := (h.newClass hinfo).define plan.scope plan.name (s.newClass info).1
    have hgiving := Mirrors.giving (s.newClass info).1 hstack hdefine
    rwa [← h.value_newClass info info'] at hgiving
  | cons member rest =>
    exact .evaluating member.1 plan.scope
      (.cons (.methodName _ member.2 maker hmethods { plan with members := rest }) hstack) h

/-- Beginning a class form leads to states that mirror each other. -/
theorem beginClass (args : List Expr) (scope : ScopeRef) :
    (beginClass args scope stack s).Mirrors r
      (Machine.beginClass args (r.scope scope) stack' s') := by
  unfold Machine.beginClass
  split
  · rename_i name maker rest
    split
    · split
      · exact .evaluating maker scope (.cons (.classMaker maker.pos ⟨_, _, scope⟩) hstack) h
      · exact .raising _ hstack h
    · exact .raising _ hstack h
  · exact .raising _ hstack h

/-- Beginning a form leads to states that mirror each other. -/
theorem begin (form : Form) (args : List Expr) (scope : ScopeRef) :
    (begin form args scope stack s).Mirrors r
      (Machine.begin form args (r.scope scope) stack' s') := by
  cases form with
  | branch =>
    simp only [Machine.begin]
    split
    · exact .evaluating _ scope (.cons (.branch _ _ scope) hstack) h
    · exact .raising _ hstack h
  | loop =>
    simp only [Machine.begin]
    split
    · exact .evaluating _ scope (.cons (.loopTest _ _ scope) hstack) h
    · exact .raising _ hstack h
  | sequence =>
    cases args with
    | nil => exact .giving (.boolean false) hstack h
    | cons e rest => exact .evaluating e scope (.cons (.sequence rest scope) hstack) h
  | define =>
    simp only [Machine.begin]
    split
    · exact .evaluating _ scope (.cons (.define _ scope) hstack) h
    · exact .raising _ hstack h
  | assign =>
    simp only [Machine.begin]
    split
    · exact .evaluating _ scope (.cons (.assign _ _ scope) hstack) h
    · exact .raising _ hstack h
  | function =>
    simp only [Machine.begin]
    split
    · exact .raising _ hstack h
    · rename_i body _
      split
      · rename_i params _
        have hgiving := Mirrors.giving (s.newClosure params body scope).1 hstack
          (h.newClosure params body scope)
        rwa [← h.value_newClosure] at hgiving
      · exact .raising _ hstack h
  | classForm => exact beginClass hstack h args scope

/-- Starting an evaluation in corresponding scopes leads to states that mirror each other. -/
theorem start (hs : s.Layered) (e : Expr) (scope : ScopeRef) :
    (start e scope stack s).Mirrors r (Machine.start e (r.scope scope) stack' s') := by
  cases e with
  | number x p => exact .giving (.number x) hstack h
  | string t p => exact .giving (.string t) hstack h
  | word name p =>
    simp only [Machine.start]
    rw [h.lookup hs]
    cases s.lookup scope name with
    | some v => exact .giving v hstack h
    | none => exact .raising _ hstack h
  | apply op args =>
    have h' : { s with depth := s.depth + 1 }.Mirrors r { s' with depth := s'.depth + 1 } :=
      { h with depth := congrArg (· + 1) h.depth }
    have hstack' := List.Forall₂.cons (Frame.Mirrors.application (r := r) op) hstack
    have heval := Mirrors.evaluating op scope (.cons (.operator op args scope) hstack') h'
    simp only [Machine.start]
    split
    · split
      · exact begin hstack' h' _ args scope
      · exact heval
    · exact heval

/-- Evaluating in corresponding scopes leads to states that mirror each other, with counters that
agree. -/
theorem eval (hs : s.Layered) (limits : Limits) (e : Expr) (scope : ScopeRef) :
    (eval limits e scope stack s).Mirrors r (Machine.eval limits e (r.scope scope) stack' s') := by
  have h' := h.counters (s.steps + 1) s.depth
  simp only [Machine.eval, h.steps, h.depth]
  split_ifs
  · exact .raising _ hstack h'
  · exact .raising _ hstack h'
  · exact start hstack h' (hs.congr rfl rfl) e scope

omit h in

/-- Replies that mirror each other lead to states that do. -/
theorem reply {answer answer' : Reply} (hreply : answer.Mirrors r answer') :
    (reply answer stack).Mirrors r (Machine.reply answer' stack') := by
  cases hreply with
  | value v h => exact .giving v hstack h
  | failure cause h => exact .raising _ hstack h
  | await f args pending h => exact .calling f args (.cons (.builtin pending) hstack) h
  | become f args h => exact .calling f args hstack h

/-- Calls of corresponding values with corresponding arguments lead to states that mirror each
other, unless they ask for chance. -/
theorem call (hs : s.WellFormed) {f : Value} {args : List Value}
    (hargs : ∀ v ∈ args, v.Within s.extent) (hf : ∀ home, f ≠ .builtin .random home) :
    (call f args stack s).Mirrors r (Machine.call (r.value f) (args.map r.value) stack' s') := by
  cases f with
  | closure c =>
    simp only [Renaming.value, Machine.call]
    rcases h.closures.found c with ⟨hnone, hnone'⟩ | ⟨c, _, hc, hc', rfl⟩
    · rw [hnone, hnone']
      exact .raising _ hstack h
    · rw [hc, hc']
      have hbind :
          (bindParams c.params args).Mirrors r (bindParams c.params (args.map r.value)) := by
        unfold bindParams
        rw [List.zip_map_right]
        exact .ofList (c.params.zip args)
      have hbody := Mirrors.evaluating c.body s.scopes.size hstack
        (h.newScope (Option.map_some (f := r.scope) (a := c.scope)).symm hbind)
      rw [← h.scopes_size] at hbody
      simp only [Renaming.closure, List.length_map]
      split_ifs
      · exact .raising _ hstack h
      · exact hbody
  | builtin b home =>
    have hb : b ≠ .random := fun heq => hf home (by rw [heq])
    exact reply hstack (Builtin.mirrors_run h hs hargs hb)
  | classRef c =>
    simp only [Renaming.value, Machine.call]
    rcases h.classes.found c with ⟨hnone, hnone'⟩ | ⟨info, info', hinfo, hinfo', hmirrors⟩
    · rw [hnone, hnone']
      exact .raising _ hstack h
    · rw [hinfo, hinfo']
      simp only [hmirrors.maker, h.value_bear]
      exact .calling _ (_ :: args) (.cons (.construct _) hstack) (h.bear c)
  | _ => exact .raising _ hstack h

/-- Handing corresponding values to corresponding frames leads to states that mirror each other. -/
theorem resume (hs : s.Layered) (v : Value) {frame frame' : Frame}
    (hframe : frame.Mirrors r frame') :
    (resume v frame stack s).Mirrors r (Machine.resume (r.value v) frame' stack' s') := by
  cases hframe with
  | application op => exact .giving v hstack { h with depth := congrArg (· - 1) h.depth }
  | operator op args scope =>
    simp only [Machine.resume, r.isCallable_value]
    split_ifs
    · exact operands hstack h v op [] args scope
    · exact .raising _ hstack h
  | operand f op done rest scope => exact operands hstack h f op (v :: done) rest scope
  | traced name => exact .giving v hstack (h.record .ends name)
  | branch yes no scope =>
    simp only [Machine.resume, r.isTruthy_value]
    exact .evaluating _ scope hstack h
  | loopTest test body scope =>
    simp only [Machine.resume, r.isTruthy_value]
    split_ifs
    · exact .evaluating body scope (.cons (.loopBody test body scope) hstack) h
    · exact .giving (.boolean false) hstack h
  | loopBody test body scope =>
    exact .evaluating test scope (.cons (.loopTest test body scope) hstack) h
  | sequence rest scope =>
    cases rest with
    | nil => exact .giving v hstack h
    | cons e rest => exact .evaluating e scope (.cons (.sequence rest scope) hstack) h
  | define name scope => exact .giving v hstack ((h.nameClosure v name).define scope name v)
  | assign name p scope =>
    simp only [Machine.resume]
    rw [h.owner hs]
    cases s.owner scope name with
    | some o => exact .giving v hstack (h.define o name v)
    | none => exact .raising _ hstack h
  | classMaker p plan =>
    simp only [Machine.resume, r.isCallable_value, r.type_value]
    split_ifs
    · exact nextMember hstack h v .empty plan
    · exact .raising _ hstack h
  | methodName p function maker hmethods plan =>
    cases v with
    | string name =>
      exact .evaluating function plan.scope
        (.cons (.methodFunction name _ maker hmethods plan) hstack) h
    | _ => exact .raising _ hstack h
  | methodFunction name p maker hmethods plan =>
    simp only [Machine.resume, r.isCallable_value, r.type_value]
    split_ifs
    · exact nextMember hstack (h.nameClosure v _) maker (hmethods.put name v) plan
    · exact .raising _ hstack h
  | construct created => exact .giving created hstack h
  | builtin pending => exact reply hstack (.resume h v pending)

/-- Handing the same fault to corresponding frames leads to states that mirror each other. -/
theorem unwind (fault : Fault) {frame frame' : Frame} (hframe : frame.Mirrors r frame') :
    (unwind fault frame stack s).Mirrors r (Machine.unwind fault frame' stack' s') := by
  cases hframe with
  | application op => exact .raising _ hstack { h with depth := congrArg (· - 1) h.depth }
  | traced name => exact .raising fault hstack (h.record .ends name)
  | _ => exact .raising fault hstack h

end Parts

variable {limits : Limits} {m m' : Machine}

/-- Where states mirror each other, so do the next states or the outcomes. -/
theorem step (h : m.Mirrors r m') (hw : m.WellFormed) (hl : m.Layered)
    (hm : m.callsRandom = false) :
    Sum.LiftRel (Machine.Mirrors r) (Outcome.Mirrors r) (step limits m)
      (Machine.step limits m') := by
  cases h with
  | evaluating e scope hstack h => exact .inl (eval hstack h hl.store limits e scope)
  | calling f args hstack h =>
    refine .inl (call hstack h hw.store (List.forall_mem_cons.mp hw.values).2 ?_)
    rintro home rfl
    exact nomatch hm
  | giving v hstack h =>
    cases hstack with
    | nil => exact .inr (.value v h)
    | cons hframe hstack => exact .inl (resume hstack h hl.store v hframe)
  | raising fault hstack h =>
    cases hstack with
    | nil => exact .inr (.fault fault h)
    | cons hframe hstack => exact .inl (unwind hstack h fault hframe)

/-- Where states mirror each other and the run of the first one never asks for chance, the outcomes
mirror each other, or neither run has come to one. -/
theorem run (h : m.Mirrors r m') (hw : m.WellFormed) (hl : m.Layered)
    (hm : ∀ m₁, Reaches limits m m₁ → m₁.callsRandom = false) (fuel : Nat) :
    Option.Rel (Outcome.Mirrors r) (run limits fuel m) (Machine.run limits fuel m') := by
  induction fuel generalizing m m' with
  | zero => exact .none
  | succ fuel ih =>
    have hstep : Sum.LiftRel (Machine.Mirrors r) (Outcome.Mirrors r) (Machine.step limits m)
        (Machine.step limits m') := h.step hw hl (hm m (.refl m))
    rw [Machine.run, Machine.run]
    generalize hnext : Machine.step limits m = next at hstep
    generalize Machine.step limits m' = next' at hstep
    cases hstep with
    | inl hmirrors =>
      refine ih hmirrors (hw.step hnext) ((next_of_step hnext).layered hl) fun m₂ hm₂ => ?_
      exact hm m₂ ((reaches_of_step hnext).trans hm₂)
    | inr houtcome => exact .some houtcome

end Mirrors

/-- Whether a run is known to end within so many steps, with no state of a kind on its way. -/
def endsWithout (m : Machine) (kind : Machine → Bool) (limits : Limits) : Nat → Bool
  | 0 => false
  | n + 1 =>
    !kind m &&
      match step limits m with
      | .inl m' => m'.endsWithout kind limits n
      | .inr _ => true

/-- A run that is known to end without a state of a kind comes to none. -/
theorem Reaches.of_endsWithout {kind : Machine → Bool} {limits : Limits} {n : Nat} {m m' : Machine}
    (hm : Reaches limits m m') (h : m.endsWithout kind limits n = true) : kind m' = false := by
  induction n generalizing m with
  | zero => exact nomatch h
  | succ n ih =>
    rw [endsWithout, Bool.and_eq_true, Bool.not_eq_true'] at h
    rcases Relation.ReflTransGen.cases_head hm with rfl | ⟨m₁, hstep, hm⟩
    · exact h.1
    · rw [hstep] at h
      exact ih hm h.2

end Machine

end TinyScript
