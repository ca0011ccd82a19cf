import TinyScript.Proofs.Layers

/-!
# What hosts do

A host makes scopes, hands a store over from one evaluator to another, and runs programs one after
the other, whether they succeed or not. A store is sound if all values in it are good, its scopes
lie inside older ones, and every class names its methods in an order. A step of the machine keeps
this, so all stores that a host comes to are sound, and so are all stores on the way.
-/

namespace TinyScript

namespace Methods

/-- The order names every method of the table, and each once. -/
structure Listed (m : Methods) : Prop where
  nodup : m.order.Nodup
  mem_order : ∀ name, name ∈ m.order ↔ name ∈ m.table.names

/-- A table without methods names all of them. -/
theorem listed_empty : empty.Listed where
  nodup := List.nodup_nil
  mem_order name := by simp [empty, ← Bindings.get?_isSome_iff]

/-- A method that is added keeps the order complete and without repetition, since a name that is
given again is in the order already. -/
theorem Listed.put {m : Methods} (h : m.Listed) (name : Text) (f : Value) :
    (m.put name f).Listed := by
  by_cases hname : (m.table.get? name).isSome
  · have hmem : name ∈ m.table.names := (m.table.get?_isSome_iff name).mp hname
    constructor
    · simpa [Methods.put, hname] using h.nodup
    · intro other
      simp only [Methods.put, hname, if_true, h.mem_order, Bindings.mem_names_put]
      exact ⟨.inr, fun hother => hother.elim (fun heq => heq ▸ hmem) id⟩
  · have hmem : name ∉ m.order := by rwa [h.mem_order, ← Bindings.get?_isSome_iff]
    constructor
    · have hfresh : ∀ a ∈ m.order, ¬ a = name := fun a ha heq => hmem (heq ▸ ha)
      simpa [Methods.put, hname, List.nodup_append, h.nodup] using hfresh
    · intro other
      simp [Methods.put, hname, h.mem_order, Bindings.mem_names_put, or_comm]

end Methods

/-- The methods of a class form that a frame has got so far. -/
def Frame.methods? : Frame → Option Methods
  | .methodName _ _ _ methods _ | .methodFunction _ _ _ methods _ => some methods
  | _ => none

/-- What a frame of a class form has learned names its methods in an order if what it had got
does. -/
theorem Frame.Learns.listed {s s' : Store} {v maker : Value} {frame : Frame} {methods : Methods}
    {plan : ClassPlan} (h : frame.Learns s v maker methods plan s')
    (hframe : ∀ ms, frame.methods? = some ms → ms.Listed) : methods.Listed := by
  cases h with
  | maker => exact Methods.listed_empty
  | method _ name _ _ old => exact (hframe old rfl).put name v

/-- Naming a function leaves the classes alone. -/
@[simp] theorem Store.classes_nameClosure (s : Store) (v : Value) (name : Text) :
    (s.nameClosure v name).classes = s.classes := by
  cases v <;> rfl

/-- Recording an event leaves the classes alone. -/
@[simp] theorem Store.classes_record (s : Store) (phase : Phase) (name : Text) :
    (s.record phase name).classes = s.classes := by
  unfold record
  split <;> rfl

/-- What a class form learns on the way leaves the classes alone. -/
theorem Frame.Learns.classes {s s' : Store} {v maker : Value} {frame : Frame} {methods : Methods}
    {plan : ClassPlan} (h : frame.Learns s v maker methods plan s') : s'.classes = s.classes := by
  cases h with
  | maker => rfl
  | method => exact Store.classes_nameClosure ..

namespace Machine

variable {limits : Limits} {m m' : Machine}

/-- All classes of a state name their methods in an order, and so do the class forms that are under
way. -/
structure Listed (m : Machine) : Prop where
  classes : ∀ info ∈ m.store.classes, info.methods.Listed
  frames : ∀ frame ∈ m.stack, ∀ ms, frame.methods? = some ms → ms.Listed

/-- A class was there before a step, or is made of what a class form has learned. -/
theorem Next.class_origin (h : Next limits m m') {info : ClassInfo}
    (hinfo : info ∈ m'.store.classes) :
    info ∈ m.store.classes ∨
      ∃ v frame maker methods plan s', frame ∈ m.stack ∧
        Frame.Learns m.store v frame maker methods plan s' ∧
        info = ⟨plan.name, maker, methods⟩ := by
  cases h with
  | @madeClass v maker frame methods plan stack s s' hlearns =>
    rcases Array.mem_push.mp hinfo with hinfo | rfl
    · exact .inl (hlearns.classes ▸ hinfo)
    · exact .inr ⟨v, frame, maker, methods, plan, s', List.mem_cons_self, hlearns, rfl⟩
  | @builtin b home args stack s =>
    rw [store_reply, (b.run_answers s args).sameOutline.classes] at hinfo
    exact .inl hinfo
  | @resume v pending stack s =>
    rw [store_reply, (pending.sameOutline_resume s v).classes] at hinfo
    exact .inl hinfo
  | @define v name scope stack s =>
    exact .inl (s.classes_nameClosure v name ▸ hinfo)
  | member hlearns => exact .inl (hlearns.classes ▸ hinfo)
  | tracedCall | traced | tracedFault =>
    rw [store, Store.classes_record] at hinfo
    exact .inl hinfo
  | _ => exact .inl hinfo

/-- A frame of a class form was there before a step, or goes on from one that was. -/
theorem Next.listed_frames (h : Next limits m m') (hm : m.Listed) :
    ∀ frame ∈ m'.stack, ∀ ms, frame.methods? = some ms → ms.Listed := by
  have hframes := hm.frames
  have hplain {frame : Frame} (hframe : frame.methods? = none) (ms : Methods)
      (hms : frame.methods? = some ms) : ms.Listed := by
    cases hframe.symm.trans hms
  cases h with
  | exceeded | literal | word | unbound | body | uncallable => exact hframes
  | operator =>
    exact List.forall_mem_cons.mpr ⟨hplain rfl, List.forall_mem_cons.mpr ⟨hplain rfl, hframes⟩⟩
  | form hopens =>
    refine List.forall_mem_cons.mpr ⟨hplain ?_, List.forall_mem_cons.mpr ⟨hplain rfl, hframes⟩⟩
    cases hopens <;> rfl
  | nothing | function | malformed | make => exact List.forall_mem_cons.mpr ⟨hplain rfl, hframes⟩
  | @builtin b home args stack s =>
    cases b.run s args with
    | await => exact List.forall_mem_cons.mpr ⟨hplain rfl, hframes⟩
    | _ => exact hframes
  | @resume v pending stack s =>
    have hbelow := (List.forall_mem_cons.mp hframes).2
    cases pending.resume s v with
    | await => exact List.forall_mem_cons.mpr ⟨hplain rfl, hbelow⟩
    | _ => exact hbelow
  | operand | tracedCall =>
    exact List.forall_mem_cons.mpr ⟨hplain rfl, (List.forall_mem_cons.mp hframes).2⟩
  | goOn hcontinues =>
    obtain ⟨hframe, hbelow⟩ := List.forall_mem_cons.mp hframes
    cases hcontinues with
    | branch => exact hbelow
    | methodName => exact List.forall_mem_cons.mpr ⟨hframe, hbelow⟩
    | _ => exact List.forall_mem_cons.mpr ⟨hplain rfl, hbelow⟩
  | member hlearns =>
    obtain ⟨hframe, hbelow⟩ := List.forall_mem_cons.mp hframes
    refine List.forall_mem_cons.mpr ⟨fun ms hms => ?_, hbelow⟩
    obtain rfl := Option.some.inj hms
    exact hlearns.listed hframe
  | leave | call | traced | define | assign | madeClass | give | rejected | locate | tracedFault
  | pass =>
    exact (List.forall_mem_cons.mp hframes).2

/-- A step keeps the methods of all classes in order. -/
theorem Next.listed (h : Next limits m m') (hm : m.Listed) : m'.Listed where
  classes info hinfo := by
    rcases h.class_origin hinfo with hinfo | ⟨_, frame, _, _, _, _, hframe, hlearns, rfl⟩
    · exact hm.classes info hinfo
    · exact hlearns.listed (hm.frames frame hframe)
  frames := h.listed_frames hm

end Machine

/-- All values in a store are good, its scopes lie inside older ones, and its classes name their
methods in an order. -/
structure Store.Sound (s : Store) : Prop where
  wellFormed : s.WellFormed
  layered : s.Layered
  listed : ∀ info ∈ s.classes, info.methods.Listed

/-- The store of a state is sound, and so is what the state is working on. -/
structure Machine.Sound (m : Machine) : Prop where
  wellFormed : m.WellFormed
  layered : m.Layered
  listed : m.Listed

namespace Machine.Sound

variable {limits : Limits} {m m' : Machine}

/-- The store of a sound state is sound. -/
theorem store (h : m.Sound) : m.store.Sound :=
  ⟨h.wellFormed.store, h.layered.store, h.listed.classes⟩

/-- A step of the machine leads from sound states to sound states. -/
theorem step (h : m.Sound) (hstep : Machine.step limits m = .inl m') : m'.Sound :=
  ⟨h.wellFormed.step hstep, (next_of_step hstep).layered h.layered,
    (next_of_step hstep).listed h.listed⟩

/-- A run leads from sound states to sound states. -/
theorem reaches (h : m.Sound) (hreaches : Reaches limits m m') : m'.Sound := by
  induction hreaches with
  | refl => exact h
  | tail _ hstep ih => exact ih.step hstep

end Machine.Sound

/-- A program that a host runs cannot be read and changes nothing, or its evaluation comes to an end
that has the value, if it gives one back. -/
theorem exists_reaches_of_execute {limits : Limits} {fuel : Nat} {src : Text} {scope : ScopeRef}
    {s : Store} {o : Outcome} (ho : execute limits fuel src scope s = some o) :
    (∃ fault, parse src = .error fault ∧ o = ⟨.error fault, s⟩) ∨
      ∃ e m, parse src = .ok e ∧
        Machine.Reaches limits (.evaluating e scope [] { s with steps := 0 }) m ∧
        m.store = o.store ∧ ∀ v, o.result = .ok v → m = .giving v [] o.store := by
  cases hparse : parse src with
  | error fault =>
    simp only [execute, hparse, Option.some.injEq] at ho
    exact .inl ⟨fault, rfl, ho.symm⟩
  | ok e =>
    simp only [execute, hparse] at ho
    rcases Machine.exists_reaches_of_run ho with ⟨w, hreaches, hw⟩ | ⟨fault, hreaches, hfault⟩
    · refine .inr ⟨e, _, rfl, hreaches, rfl, fun v hv => ?_⟩
      rw [Except.ok.inj (hw.symm.trans hv)]
    · refine .inr ⟨e, _, rfl, hreaches, rfl, fun v hv => ?_⟩
      cases hfault.symm.trans hv

namespace Store

/-- One thing that a host does to a store. -/
inductive HostStep : Store → Store → Prop where
  | newTopScope (s : Store) : HostStep s s.newTopScope.2
  | newScope (s : Store) {outer : Option ScopeRef}
      (houter : ∀ e, outer = some e → e < s.scopes.size) : HostStep s (s.newScope outer .empty).2
  | handOver (s : Store) (output : Output) (events : Option (List CallEvent)) (supply : Supply)
      (steps depth : Nat) :
      HostStep s { s with
        output := output, events := events, supply := supply, steps := steps, depth := depth }
  | execute {s : Store} {limits : Limits} {fuel : Nat} {src : Text} {scope : ScopeRef}
      {o : Outcome} (hscope : scope < s.scopes.size)
      (ho : execute limits fuel src scope s = some o) : HostStep s o.store

/-- A host comes from one store to another. -/
def Leads : Store → Store → Prop := Relation.ReflTransGen HostStep

variable {s s' : Store}

/-- A scope that is made inside one that is there lies inside an older one. -/
theorem Layered.newScope (h : s.Layered) {outer : Option ScopeRef}
    (houter : ∀ e, outer = some e → e < s.scopes.size) (bindings : Bindings) :
    (s.newScope outer bindings).2.Layered where
  outer := OuterOlder.newScope h.outer houter bindings
  closures c hc := by
    simp only [Store.newScope, Array.size_push]
    exact Nat.lt_succ_of_lt (h.closures c hc)

/-- A new scope inside an older one keeps a store sound. -/
theorem Sound.newScope (h : s.Sound) {outer : Option ScopeRef}
    (houter : ∀ e, outer = some e → e < s.scopes.size) {bindings : Bindings}
    (hbindings : bindings.Within s.extent) : (s.newScope outer bindings).2.Sound where
  wellFormed := h.wellFormed.newScope hbindings outer
  layered := h.layered.newScope houter bindings
  listed := h.listed

/-- A new top scope keeps a store sound. -/
theorem Sound.newTopScope (h : s.Sound) : s.newTopScope.2.Sound := by
  refine h.newScope (fun e he => by cases he) (Bindings.within_ofList ?_)
  simp [Value.Within]

/-- The output, the record, the supply and the counters say nothing about values. -/
theorem Sound.handOver (h : s.Sound) (output : Output) (events : Option (List CallEvent))
    (supply : Supply) (steps depth : Nat) :
    { s with output := output, events := events, supply := supply, steps := steps,
             depth := depth }.Sound where
  wellFormed := ⟨h.wellFormed.scopes, h.wellFormed.arrays, h.wellFormed.instances,
    h.wellFormed.classes⟩
  layered := h.layered.congr rfl rfl
  listed := h.listed

/-- The evaluation of a program begins in a sound state. -/
theorem Sound.evaluating (h : s.Sound) {scope : ScopeRef} (hscope : scope < s.scopes.size)
    (e : Expr) : (Machine.evaluating e scope [] { s with steps := 0 }).Sound where
  wellFormed := Machine.wellFormed_evaluating (h.wellFormed.counters 0 s.depth)
    (List.forall_mem_nil _) e scope
  layered := ⟨h.layered.congr rfl rfl, List.forall_mem_cons.mpr ⟨hscope, List.forall_mem_nil _⟩⟩
  listed := ⟨h.listed, List.forall_mem_nil _⟩

/-- Whatever a host does keeps a store sound. -/
theorem HostStep.sound (h : HostStep s s') (hs : s.Sound) : s'.Sound := by
  cases h with
  | newTopScope => exact hs.newTopScope
  | newScope houter => exact hs.newScope houter Bindings.within_empty
  | handOver => exact hs.handOver ..
  | execute hscope ho =>
    rcases exists_reaches_of_execute ho with ⟨fault, -, rfl⟩ | ⟨e, m, -, hreaches, hstore, -⟩
    · exact hs
    · exact hstore ▸ ((hs.evaluating hscope e).reaches hreaches).store

/-- Whatever a host does, a sound store stays sound. -/
theorem Leads.sound (h : s.Leads s') (hs : s.Sound) : s'.Sound := by
  induction h with
  | refl => exact hs
  | tail _ hstep ih => exact hstep.sound ih

/-- A new store is sound. -/
theorem sound_empty (output : Output) (traced : Bool) : (empty output traced).Sound where
  wellFormed := (Reachable.empty output traced).wellFormed
  layered := ⟨by simp [empty, outer?], by simp [empty]⟩
  listed := by simp [empty]

end Store

end TinyScript
