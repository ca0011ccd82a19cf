import TinyScript.Proofs.Derivations
import TinyScript.Proofs.Requests

/-!
# Where faults are

Every fault that a program ends in has a place. If the program can be read, this is the place of a
part of it, or of a part of an older program that one of its functions, called now, comes from. For
this the expressions that a run evaluates are traced back to programs, together with the places that
frames keep. That no fault is left without a place is owed to the outermost frame, which always ends
an application.
-/

namespace TinyScript

namespace Expr

/-- The expressions that an expression is made of, itself included. -/
inductive Part : Expr → Expr → Prop where
  | refl (e : Expr) : Part e e
  | operator {e op : Expr} (args : List Expr) (h : Part e op) : Part e (.apply op args)
  | argument {e arg : Expr} {args : List Expr} (op : Expr) (harg : arg ∈ args) (h : Part e arg) :
      Part e (.apply op args)

/-- A part of a part is a part. -/
theorem Part.trans {e e' e'' : Expr} (h : Part e e') (h' : Part e' e'') : Part e e'' := by
  induction h' with
  | refl => exact h
  | operator args _ ih => exact .operator args ih
  | argument op harg _ ih => exact .argument op harg ih

/-- Parts of an expression pass that on to their own parts. -/
theorem inherited_part (e : Expr) : Inherited fun part => part.Part e where
  operator op args h := (Part.operator args (.refl op)).trans h
  argument op _ h arg harg := (Part.argument op harg (.refl arg)).trans h

/-- What passes on to operators and arguments passes on to all parts. -/
theorem Inherited.part {P : Expr → Prop} (hP : Inherited P) {part e : Expr} (h : part.Part e)
    (he : P e) : P part := by
  induction h with
  | refl => exact he
  | operator args _ ih => exact ih (hP.operator _ args he)
  | argument op harg _ ih => exact ih (hP.argument op _ he _ harg)

/-- A place where one of the expressions with a property begins. -/
def Begins (P : Expr → Prop) (p : Position) : Prop := ∃ e, P e ∧ e.pos = p

end Expr

/-- The place that a frame gives to a fault. -/
def Frame.place? : Frame → Option Position
  | .application op | .operator op _ _ => some op.pos
  | .assign _ p _ | .classMaker p _ | .methodName p _ _ _ _ | .methodFunction _ p _ _ _ => some p
  | _ => none

namespace Machine

/-- The place of the fault that a state raises. -/
def place? : Machine → Option Position
  | raising fault _ _ => fault.place
  | _ => none

/-- Every place that a frame keeps or that a fault has is where one of the expressions with a
property begins. -/
structure Located (P : Expr → Prop) (m : Machine) : Prop where
  frames : ∀ frame ∈ m.stack, ∀ p, frame.place? = some p → Expr.Begins P p
  fault : ∀ p, m.place? = some p → Expr.Begins P p

variable {limits : Limits} {m m' : Machine} {P Q : Expr → Prop}

/-- The reply of a builtin is no fault with a place. -/
theorem place?_reply (r : Reply) (stack : List Frame) : (reply r stack).place? = none := by
  cases r <;> rfl

/-- The reply of a builtin adds at most a frame that keeps no place. -/
theorem place?_of_mem_stack_reply {r : Reply} {stack : List Frame} {frame : Frame}
    (h : frame ∈ (reply r stack).stack) : frame ∈ stack ∨ frame.place? = none := by
  cases r with
  | await f args pending s =>
    rcases List.mem_cons.mp h with rfl | h
    · exact .inr rfl
    · exact .inl h
  | _ => exact .inl h

/-- The place that a form keeps is where one of its arguments begins. -/
theorem begins_opens {form : Form} {scope : ScopeRef} {args : List Expr} {e : Expr} {frame : Frame}
    (h : form.Opens scope args e frame) (hargs : ∀ e ∈ args, P e) {p : Position}
    (hp : frame.place? = some p) : Expr.Begins P p := by
  cases h with
  | assign name q e =>
    obtain rfl := Option.some.inj hp
    exact ⟨.word name q, hargs _ (by simp), rfl⟩
  | classForm =>
    obtain rfl := Option.some.inj hp
    exact ⟨_, hargs _ (by simp), rfl⟩
  | _ => cases hp

/-- The places that frames keep after a step are those of expressions that were at hand. -/
theorem Next.begins_stack (h : Next limits m m') (hP : Expr.Inherited P) (hmade : m.MadeOf P Q)
    (hm : m.Located P) : ∀ frame ∈ m'.stack, ∀ p, frame.place? = some p → Expr.Begins P p := by
  have hframes := hm.frames
  have happlication {op : Expr} {args : List Expr} {e : Expr} (he : m.expr? = some e)
      (hop : e = .apply op args) (p : Position)
      (hp : (Frame.application op).place? = some p) : Expr.Begins P p := by
    obtain rfl := Option.some.inj hp
    exact ⟨op, hP.operator op args (hop ▸ hmade.expr _ he), rfl⟩
  have hplain {frame : Frame} (hframe : frame.place? = none) (p : Position)
      (hp : frame.place? = some p) : Expr.Begins P p := by
    cases hframe.symm.trans hp
  cases h with
  | exceeded | literal | word | unbound | body | uncallable => exact hframes
  | operator =>
    exact List.forall_mem_cons.mpr ⟨happlication rfl rfl,
      List.forall_mem_cons.mpr ⟨happlication rfl rfl, hframes⟩⟩
  | form hopens =>
    have hargs := hP.argument _ _ (hmade.expr _ rfl)
    exact List.forall_mem_cons.mpr ⟨fun p hp => begins_opens hopens hargs hp,
      List.forall_mem_cons.mpr ⟨happlication rfl rfl, hframes⟩⟩
  | nothing | function | malformed =>
    exact List.forall_mem_cons.mpr ⟨happlication rfl rfl, hframes⟩
  | make => exact List.forall_mem_cons.mpr ⟨hplain rfl, hframes⟩
  | builtin =>
    intro frame hframe p hp
    rcases place?_of_mem_stack_reply hframe with hframe | hframe
    · exact hframes frame hframe p hp
    · exact hplain hframe p hp
  | resume =>
    intro frame hframe p hp
    rcases place?_of_mem_stack_reply hframe with hframe | hframe
    · exact hframes frame (List.mem_cons_of_mem _ hframe) p hp
    · exact hplain hframe p hp
  | operand | tracedCall =>
    exact List.forall_mem_cons.mpr ⟨hplain rfl, (List.forall_mem_cons.mp hframes).2⟩
  | goOn hcontinues =>
    have hbelow := (List.forall_mem_cons.mp hframes).2
    cases hcontinues with
    | branch => exact hbelow
    | methodName =>
      refine List.forall_mem_cons.mpr ⟨fun p hp => ?_, hbelow⟩
      obtain rfl := Option.some.inj hp
      exact ⟨_, hmade.stack _ List.mem_cons_self _ List.mem_cons_self, rfl⟩
    | _ => exact List.forall_mem_cons.mpr ⟨hplain rfl, hbelow⟩
  | @member v maker frame methods plan name function rest stack s s' hlearns hmembers =>
    refine List.forall_mem_cons.mpr ⟨fun p hp => ?_, (List.forall_mem_cons.mp hframes).2⟩
    obtain rfl := Option.some.inj hp
    have hname := hmade.stack _ List.mem_cons_self name
    exact ⟨name, hname (by cases hlearns <;> simp [Frame.exprs, ClassPlan.exprs, hmembers]), rfl⟩
  | leave | call | traced | define | assign | madeClass | give | rejected | locate | tracedFault
  | pass =>
    exact (List.forall_mem_cons.mp hframes).2

/-- The place of a fault after a step is one that it had, one that a frame kept, or that of an
expression at hand. -/
theorem Next.begins_fault (h : Next limits m m') (hP : Expr.Inherited P) (hmade : m.MadeOf P Q)
    (hm : m.Located P) {p : Position} (hp : m'.place? = some p) : Expr.Begins P p := by
  cases h with
  | exceeded =>
    obtain rfl := Option.some.inj hp
    exact ⟨_, hmade.expr _ rfl, rfl⟩
  | @unbound name q =>
    obtain rfl := Option.some.inj hp
    exact ⟨.word name q, hmade.expr _ rfl, rfl⟩
  | malformed hfault =>
    obtain ⟨e, he, hpos⟩ := hfault.place p hp
    exact ⟨e, hP.argument _ _ (hmade.expr _ rfl) e he, hpos⟩
  | builtin | resume =>
    rw [place?_reply] at hp
    cases hp
  | rejected hrejects =>
    have hframe := hm.frames _ List.mem_cons_self
    cases hrejects <;> exact hframe p hp
  | @locate fault op =>
    cases hplace : fault.place with
    | some q =>
      simp only [place?, located, hplace] at hp
      exact hm.fault p (hplace.trans hp)
    | none =>
      simp only [place?, located, hplace] at hp
      exact hm.frames _ List.mem_cons_self p hp
  | tracedFault | pass => exact hm.fault p hp
  | _ => cases hp

/-- A step keeps places where expressions with the property begin. -/
theorem Next.located (h : Next limits m m') (hP : Expr.Inherited P) (hmade : m.MadeOf P Q)
    (hm : m.Located P) : m'.Located P where
  frames := h.begins_stack hP hmade hm
  fault _ hp := h.begins_fault hP hmade hm hp

/-- The outermost frame, if there is one, ends an application. -/
def Rooted : List Frame → Prop
  | [] => True
  | frame :: stack => Rooted stack ∧ (stack = [] → frame.isApplication = true)

/-- A call, whose fault has no place yet, or a fault without a place. -/
def Unplaced : Machine → Prop
  | calling _ _ _ _ => True
  | raising fault _ _ => fault.place = none
  | _ => False

/-- All frames are inside an application, and so is everything that may leave a fault without a
place. -/
structure Enclosed (m : Machine) : Prop where
  rooted : Rooted m.stack
  inside : m.Unplaced → m.stack ≠ []

/-- A frame that ends no application is not the outermost one. -/
theorem Rooted.ne_nil {frame : Frame} {stack : List Frame} (h : Rooted (frame :: stack))
    (hframe : frame.isApplication = false) : stack ≠ [] := by
  intro hnil
  cases hframe.symm.trans (h.2 hnil)

/-- A frame on others leaves the outermost one in its place. -/
theorem Rooted.push {stack : List Frame} (h : Rooted stack) (hne : stack ≠ []) (frame : Frame) :
    Rooted (frame :: stack) :=
  ⟨h, fun hnil => absurd hnil hne⟩

/-- The frame of an application may be the outermost one. -/
theorem Rooted.application {stack : List Frame} (h : Rooted stack) (op : Expr) :
    Rooted (.application op :: stack) :=
  ⟨h, fun _ => rfl⟩

/-- The reply of a builtin is inside of an application if the builtin was called inside of one. -/
theorem enclosed_reply {stack : List Frame} (h : Rooted stack) (hne : stack ≠ []) (r : Reply) :
    (reply r stack).Enclosed := by
  cases r with
  | await f args pending s => exact ⟨h.push hne _, fun _ => List.cons_ne_nil _ _⟩
  | _ => exact ⟨h, fun _ => hne⟩

/-- A step stays inside of applications. -/
theorem Next.enclosed (h : Next limits m m') (hm : m.Enclosed) : m'.Enclosed := by
  have hrooted := hm.rooted
  cases h with
  | exceeded | unbound => exact ⟨hrooted, fun hplace => by cases hplace⟩
  | literal | word | body => exact ⟨hrooted, False.elim⟩
  | @operator op =>
    exact ⟨(hrooted.application op).push (List.cons_ne_nil _ _) _, False.elim⟩
  | form => exact ⟨(hrooted.application _).push (List.cons_ne_nil _ _) _, False.elim⟩
  | nothing | function => exact ⟨hrooted.application _, False.elim⟩
  | malformed => exact ⟨hrooted.application _, fun _ => List.cons_ne_nil _ _⟩
  | make => exact ⟨hrooted.push (hm.inside trivial) _, fun _ => List.cons_ne_nil _ _⟩
  | builtin => exact enclosed_reply hrooted (hm.inside trivial) _
  | uncallable => exact ⟨hrooted, fun _ => hm.inside trivial⟩
  | leave | give | define | assign | madeClass | traced => exact ⟨hrooted.1, False.elim⟩
  | operand hcollects =>
    have hne := hrooted.ne_nil (by cases hcollects <;> rfl)
    exact ⟨hrooted.1.push hne _, False.elim⟩
  | call hcollects =>
    have hne := hrooted.ne_nil (by cases hcollects <;> rfl)
    exact ⟨hrooted.1, fun _ => hne⟩
  | tracedCall hcollects =>
    have hne := hrooted.ne_nil (by cases hcollects <;> rfl)
    exact ⟨hrooted.1.push hne _, fun _ => List.cons_ne_nil _ _⟩
  | goOn hcontinues =>
    have hne := hrooted.ne_nil (by cases hcontinues <;> rfl)
    cases hcontinues with
    | branch => exact ⟨hrooted.1, False.elim⟩
    | _ => exact ⟨hrooted.1.push hne _, False.elim⟩
  | member hlearns =>
    have hne := hrooted.ne_nil (by cases hlearns <;> rfl)
    exact ⟨hrooted.1.push hne _, False.elim⟩
  | rejected hrejects =>
    cases hrejects <;> exact ⟨hrooted.1, fun hplace => by cases hplace⟩
  | resume => exact enclosed_reply hrooted.1 (hrooted.ne_nil rfl) _
  | @locate fault op =>
    refine ⟨hrooted.1, fun hplace => ?_⟩
    simp only [Unplaced, Machine.located] at hplace
    cases hfault : fault.place <;> simp [hfault] at hplace
  | tracedFault => exact ⟨hrooted.1, fun _ => hrooted.ne_nil rfl⟩
  | @pass fault frame stack s hsilent =>
    refine ⟨hrooted.1, fun _ => hrooted.ne_nil ?_⟩
    cases frame with
    | application => exact hsilent.elim
    | _ => rfl

/-- The innermost application of a stack. -/
theorem Rooted.exists_innermost {stack : List Frame} (h : Rooted stack) (hne : stack ≠ []) :
    ∃ above op below, stack = above ++ .application op :: below ∧
      ∀ frame ∈ above, frame.isApplication = false := by
  induction stack with
  | nil => exact absurd rfl hne
  | cons frame stack ih =>
    cases hframe : frame.isApplication with
    | true =>
      cases frame <;> cases hframe
      exact ⟨[], _, stack, rfl, List.forall_mem_nil _⟩
    | false =>
      obtain ⟨above, op, below, rfl, habove⟩ := ih h.1 (h.ne_nil hframe)
      exact ⟨frame :: above, op, below, rfl, List.forall_mem_cons.mpr ⟨hframe, habove⟩⟩

/-- A fault that has a place keeps it. -/
theorem reaches_raising_placed (limits : Limits) (cause : Cause) (p : Position)
    (stack : List Frame) (s : Store) :
    ∃ s', Reaches limits (raising (.placed cause p) stack s) (raising (.placed cause p) [] s') := by
  induction stack generalizing s with
  | nil => exact ⟨s, .refl _⟩
  | cons frame stack ih =>
    have hstep : ∃ s', step limits (raising (.placed cause p) (frame :: stack) s) =
        .inl (raising (.placed cause p) stack s') := by
      cases frame <;> exact ⟨_, rfl⟩
    obtain ⟨s', hstep⟩ := hstep
    obtain ⟨s'', hreaches⟩ := ih s'
    exact ⟨s'', (reaches_of_step hstep).trans hreaches⟩

/-- A fault without a place gets that of the innermost application. -/
theorem reaches_raising_unplaced (limits : Limits) (cause : Cause) {above : List Frame}
    (habove : ∀ frame ∈ above, frame.isApplication = false) (op : Expr) (below : List Frame)
    (s : Store) :
    ∃ s', Reaches limits (raising (.unplaced cause) (above ++ .application op :: below) s)
      (raising (.placed cause op.pos) [] s') := by
  induction above generalizing s with
  | nil =>
    obtain ⟨s', hreaches⟩ := reaches_raising_placed limits cause op.pos below
      { s with depth := s.depth - 1 }
    exact ⟨s', (reaches_of_step rfl).trans hreaches⟩
  | cons frame above ih =>
    obtain ⟨hframe, habove⟩ := List.forall_mem_cons.mp habove
    have hstep : ∃ s', step limits
        (raising (.unplaced cause) (frame :: (above ++ .application op :: below)) s) =
          .inl (raising (.unplaced cause) (above ++ .application op :: below) s') := by
      cases frame with
      | application => cases hframe
      | _ => exact ⟨_, rfl⟩
    obtain ⟨s', hstep⟩ := hstep
    obtain ⟨s'', hreaches⟩ := ih habove s'
    exact ⟨s'', (reaches_of_step hstep).trans hreaches⟩

section Evaluation

variable {e : Expr} {scope : ScopeRef} {s : Store}

/-- All that may leave a fault without a place, on the way of a program, is inside of an
application. -/
theorem Reaches.enclosed (h : Reaches limits (evaluating e scope [] s) m) : m.Enclosed :=
  h.invariant (I := Enclosed) ⟨trivial, False.elim⟩ fun _ _ => Next.enclosed

/-- The parts of a program and of those called closures that come from older expressions. -/
def ComesUp (limits : Limits) (Older : Expr → Prop) (e : Expr) (scope : ScopeRef) (s : Store)
    (part : Expr) : Prop :=
  part.Part e ∨ ∃ m c, Reaches limits (evaluating e scope [] s) m ∧ m.Calls c ∧ Older c.body ∧
    part.Part c.body

/-- Expressions that come up pass that on to their parts. -/
theorem inherited_comesUp (Older : Expr → Prop) :
    Expr.Inherited (ComesUp limits Older e scope s) where
  operator op args h := by
    rcases h with h | ⟨m, c, hm, hcall, hbody, h⟩
    · exact .inl ((Expr.inherited_part e).operator op args h)
    · exact .inr ⟨m, c, hm, hcall, hbody, (Expr.inherited_part c.body).operator op args h⟩
  argument op args h arg harg := by
    rcases h with h | ⟨m, c, hm, hcall, hbody, h⟩
    · exact .inl ((Expr.inherited_part e).argument op args h arg harg)
    · exact .inr ⟨m, c, hm, hcall, hbody, (Expr.inherited_part c.body).argument op args h arg harg⟩

/-- Whatever a run evaluates is a part of its program or of a closure from before that it has
called, and faults are placed accordingly. -/
theorem Reaches.located {Older : Expr → Prop} (holder : Expr.Inherited Older)
    (hclosures : ∀ c ∈ s.closures, Older c.body)
    (h : Reaches limits (evaluating e scope [] s) m) :
    m.MadeOf (ComesUp limits Older e scope s) (fun part => part.Part e ∨ Older part) ∧
      m.Located (ComesUp limits Older e scope s) := by
  have hinherited : Expr.Inherited (ComesUp limits Older e scope s) := inherited_comesUp Older
  induction h with
  | refl =>
    refine ⟨⟨?_, List.forall_mem_nil _, fun c hc => .inr (hclosures c hc)⟩,
      List.forall_mem_nil _, ?_⟩
    · intro part hpart
      obtain rfl := Option.some.inj hpart
      exact .inl (.refl e)
    · intro p hp
      cases hp
  | @tail m₁ m₂ hreaches hstep ih =>
    obtain ⟨hmade, hlocated⟩ := ih
    have hnext := next_of_step hstep
    refine ⟨hnext.madeOf hinherited ?_ ?_ hmade, hnext.located hinherited hmade hlocated⟩
    · intro part hpart
      rcases hpart with hpart | ⟨m, c, -, -, hbody, hpart⟩
      · exact .inl hpart
      · exact .inr (holder.part hpart hbody)
    · intro c hc
      rcases hmade.closures c hc.mem with hbody | hbody
      · exact .inl hbody
      · exact .inr ⟨m₁, c, hreaches, hc, hbody, .refl c.body⟩

/-- A print that the output refuses ends the run in a fault of the host, at the innermost
application around the print. -/
theorem result_of_refused_print {fuel : Nat} {o : Outcome} {home : ScopeRef} {v : Value}
    {stack : List Frame} {t : Store} (hrun : run limits fuel (evaluating e scope [] s) = some o)
    (h : Reaches limits (evaluating e scope [] s) (calling (.builtin .print home) [v] stack t))
    {why : Text} (hrefusal : t.output.refusal? = some why) :
    ∃ above op below, stack = above ++ .application op :: below ∧
      (∀ frame ∈ above, frame.isApplication = false) ∧
      o.result = .error (.placed (.host ("print: " ++ why)) op.pos) := by
  have henclosed := h.enclosed
  obtain ⟨above, op, below, rfl, habove⟩ :=
    henclosed.rooted.exists_innermost (henclosed.inside trivial)
  have hcall : Reaches limits
      (calling (.builtin .print home) [v] (above ++ .application op :: below) t)
      (raising (.unplaced (.host ("print: " ++ why))) (above ++ .application op :: below)
        { t with output := t.output.write (t.display v ++ "\n") }) := by
    apply reaches_of_step
    have hreply : Builtin.run .print t [v] = .failure (.host ("print: " ++ why))
        { t with output := t.output.write (t.display v ++ "\n") } := by
      simp only [Builtin.run, Builtin.pureResult?, Builtin.effect, Builtin.argument, bind, pure,
        Except.bind, Except.pure, List.getElem?_cons_zero, hrefusal]
      rfl
    simp only [step, call, hreply]
    rfl
  obtain ⟨s', hend⟩ := reaches_raising_unplaced limits _ habove op below _
  obtain ⟨fuel', hrun'⟩ := ((h.trans hcall).trans hend).exists_run hrun
  refine ⟨above, op, below, rfl, habove, ?_⟩
  cases fuel' with
  | zero => cases hrun'
  | succ fuel' =>
    obtain rfl := Option.some.inj hrun'
    rfl

end Evaluation

end Machine

/-- The parts of programs that a host has asked for. -/
def Requested (requests : List Request) (part : Expr) : Prop :=
  ∃ src scope e, Request.run src scope ∈ requests ∧ parse src = .ok e ∧ part.Part e

/-- Parts of programs asked for pass that on to their parts. -/
theorem inherited_requested (requests : List Request) : Expr.Inherited (Requested requests) where
  operator op args h := by
    obtain ⟨src, scope, e, hsrc, he, hpart⟩ := h
    exact ⟨src, scope, e, hsrc, he, (Expr.inherited_part e).operator op args hpart⟩
  argument op args h arg harg := by
    obtain ⟨src, scope, e, hsrc, he, hpart⟩ := h
    exact ⟨src, scope, e, hsrc, he, (Expr.inherited_part e).argument op args hpart arg harg⟩

/-- A request begins with expressions that have a property, if the functions in the store and the
program asked for do. -/
theorem Request.madeOf_first? {s : Store} {request : Request} {m : Machine} {P : Expr → Prop}
    (h : request.first? s = some m) (hclosures : ∀ c ∈ s.closures, P c.body)
    (hexpr : ∀ src scope e, request = .run src scope → parse src = .ok e → P e) : m.MadeOf P P := by
  rcases first?_eq_some h with ⟨src, scope, e, hrequest, hparse, rfl⟩ | ⟨f, args, -, rfl⟩
  · refine ⟨?_, List.forall_mem_nil _, hclosures⟩
    intro e' he'
    obtain rfl := Option.some.inj he'
    exact hexpr src scope e hrequest hparse
  · refine ⟨?_, List.forall_mem_nil _, hclosures⟩
    intro e he
    cases he

/-- All closures come from the programs that were run. -/
theorem Store.Serves.closures {s s' : Store} {requests : List Request} (hs : s.closures = #[])
    (h : s.Serves requests s') : ∀ c ∈ s'.closures, Requested requests c.body := by
  induction h with
  | start => simp [hs]
  | redirect _ _ ih => exact ih
  | @perform requests s' limits fuel request o _ ho ih =>
    have hclosures : ∀ c ∈ s'.closures, Requested (requests ++ [request]) c.body := by
      intro c hc
      obtain ⟨src, scope, e, hsrc, he, hpart⟩ := ih c hc
      exact ⟨src, scope, e, List.mem_append_left _ hsrc, he, hpart⟩
    rcases Request.perform_eq_some ho with ⟨m, hm, hrun⟩ | ⟨-, hstore, -⟩
    · have hmade := Request.madeOf_first? hm hclosures fun src scope e hrequest he =>
        ⟨src, scope, e, by simp [hrequest], he, .refl e⟩
      have hinherited := inherited_requested (requests ++ [request])
      obtain ⟨m', hreaches, -, hend⟩ := Machine.exists_end_of_run hrun
      rw [← hend]
      exact (hreaches.madeOf hinherited hmade).closures
    · rw [hstore]
      exact hclosures

/-- Whatever programs were run before on an evaluator that began without closures, whenever a
program ends in a fault, the fault has a place. If the program can be read, the fault is not that of
an unfinished text, and its place is that of a part of the program, or of a part of a closure that
it has called and that comes from a program run before. A print that the output refuses, for
whatever reason, is a fault of the host at the innermost application around it, and the reason is
its message. -/
theorem place_of_execute {s s' : Store} {requests : List Request} (hs : s.closures = #[])
    (h : s.Serves requests s') {limits : Limits} {fuel : Nat} {src : Text} {scope : ScopeRef}
    {o : Outcome} (ho : execute limits fuel src scope s' = some o) :
    (∀ fault, o.result = .error fault → ∃ p, fault.place = some p ∧
      ∀ e, parse src = .ok e → fault.cause.isIncomplete = false ∧
        ((∃ part : Expr, part.Part e ∧ part.pos = p) ∨
          ∃ m c src' scope' e', ∃ part : Expr,
            Machine.Reaches limits (.evaluating e scope [] { s' with steps := 0 }) m ∧ m.Calls c ∧
            .run src' scope' ∈ requests ∧ parse src' = .ok e' ∧ c.body.Part e' ∧
            part.Part c.body ∧ part.pos = p)) ∧
    ∀ e home v stack t why, parse src = .ok e →
      Machine.Reaches limits (.evaluating e scope [] { s' with steps := 0 })
        (.calling (.builtin .print home) [v] stack t) →
      t.output.refusal? = some why →
      ∃ above op below fault, stack = above ++ .application op :: below ∧
        (∀ frame ∈ above, frame.isApplication = false) ∧ o.result = .error fault ∧
        fault.cause = .host ("print: " ++ why) ∧ fault.cause.kind = .hostError ∧
        fault.place = some op.pos := by
  cases hparse : parse src with
  | error unread =>
    simp only [execute, hparse] at ho
    obtain rfl := Option.some.inj ho
    refine ⟨?_, fun e _ _ _ _ _ he => by cases he⟩
    intro fault hfault
    obtain rfl := Except.error.inj hfault
    obtain ⟨p, hplace, -⟩ := syntaxError_of_parse hparse
    exact ⟨p, hplace, fun e he => by cases he⟩
  | ok e =>
    simp only [execute, hparse] at ho
    constructor
    · intro fault hfault
      have hfinal := isFinal_of_evaluate ho hfault
      have hreaches := Machine.reaches_raising_of_run ho hfault
      have hclosures : ∀ c ∈ s'.closures, Requested requests c.body := h.closures hs
      obtain ⟨-, hlocated⟩ := Machine.Reaches.located (s := { s' with steps := 0 })
        (inherited_requested requests) hclosures hreaches
      cases hplace : fault.place with
      | none => exact absurd rfl (hreaches.enclosed.inside hplace)
      | some p =>
        refine ⟨p, rfl, ?_⟩
        intro e' he'
        obtain rfl := Except.ok.inj he'
        refine ⟨hfinal, ?_⟩
        obtain ⟨part, hpart, hpos⟩ := hlocated.fault p hplace
        rcases hpart with hpart | ⟨m, c, hm, hcall, hbody, hpart⟩
        · exact .inl ⟨part, hpart, hpos⟩
        · obtain ⟨src', scope', e', hsrc', he', hbody⟩ := hbody
          exact .inr ⟨m, c, src', scope', e', part, hm, hcall, hsrc', he', hbody, hpart, hpos⟩
    · intro e' home v stack t why he' hreaches hrefusal
      obtain rfl := Except.ok.inj he'
      obtain ⟨above, op, below, hstack, habove, hresult⟩ :=
        Machine.result_of_refused_print ho hreaches hrefusal
      exact ⟨above, op, below, _, hstack, habove, hresult, rfl, rfl, rfl⟩

/-- A function of an earlier program prints, and the output refuses it: the place is that of the
word `print` in the earlier program. -/
theorem place_of_execute_earlier :
    ∃ (s' : Store) (o : Outcome) (fault : Fault) (p : Position),
      (Store.initial (.fresh (some 0)) false).2.closures = #[] ∧
      (Store.initial (.fresh (some 0)) false).2.Serves
        [.run "define(f, fun(x, print(x)))" (Store.initial (.fresh (some 0)) false).1] s' ∧
      execute ⟨none, none⟩ 100 "f(1)" (Store.initial (.fresh (some 0)) false).1 s' = some o ∧
      o.result = .error fault ∧ fault.cause.kind = .hostError ∧ fault.place = some p ∧
      p = ⟨1, 18⟩ := by
  obtain ⟨o₁, ho₁, hcheck⟩ := (Option.any_eq_true ..).mp (by decide +kernel :
    ((execute ⟨none, none⟩ 20 "define(f, fun(x, print(x)))"
      (Store.initial (.fresh (some 0)) false).1 (Store.initial (.fresh (some 0)) false).2).any
        fun o₁ => (execute ⟨none, none⟩ 100 "f(1)" (Store.initial (.fresh (some 0)) false).1
          o₁.store).any fun o => match o.result with
            | .error fault => fault.cause.kind == .hostError && fault.place == some ⟨1, 18⟩
            | .ok _ => false) = true)
  obtain ⟨o, ho, hcheck⟩ := (Option.any_eq_true ..).mp hcheck
  have hserves : (Store.initial (.fresh (some 0)) false).2.Serves _ o₁.store :=
    Store.Serves.start.execute ho₁
  cases hresult : o.result with
  | ok v =>
    rw [hresult] at hcheck
    cases hcheck
  | error fault =>
    simp only [hresult, Bool.and_eq_true, beq_iff_eq] at hcheck
    obtain ⟨p, hplace, -⟩ := (place_of_execute rfl hserves ho).1 fault hresult
    refine ⟨o₁.store, o, fault, p, rfl, hserves, ho, hresult, hcheck.1, hplace, ?_⟩
    exact Option.some.inj (hplace.symm.trans hcheck.2)

end TinyScript
