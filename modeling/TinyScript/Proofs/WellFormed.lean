import TinyScript.Machine.Run
import TinyScript.Proofs.References

/-!
# Well-formed states

A state of the machine is well formed if its store is, and if all values that it is working on and
that its frames hold are good in that store. Every step keeps this, so every store that programs can
leave behind is well formed.
-/

namespace TinyScript

/-- What a waiting builtin holds lies within an extent. -/
def Pending.Within (x : Extent) : Pending → Prop
  | .mapping f done rest => f.Within x ∧ (∀ v ∈ done, v.Within x) ∧ ∀ v ∈ rest, v.Within x
  | .filtering f item done rest =>
    f.Within x ∧ item.Within x ∧ (∀ v ∈ done, v.Within x) ∧ ∀ v ∈ rest, v.Within x
  | .visiting f rest => f.Within x ∧ ∀ v ∈ rest, v.Within x
  | .finding f item rest => f.Within x ∧ item.Within x ∧ ∀ v ∈ rest, v.Within x
  | .folding f rest => f.Within x ∧ ∀ v ∈ rest, v.Within x
  | .sorting f next => f.Within x ∧
      ∀ answer, (next answer).All (Value.Within x) fun items => ∀ v ∈ items, v.Within x

/-- What a frame holds lies within an extent. -/
def Frame.Within (x : Extent) : Frame → Prop
  | .operand f _ done _ _ => f.Within x ∧ ∀ v ∈ done, v.Within x
  | .methodName _ _ maker methods _ => maker.Within x ∧ methods.Within x
  | .methodFunction _ _ maker methods _ => maker.Within x ∧ methods.Within x
  | .construct created => created.Within x
  | .builtin pending => pending.Within x
  | _ => True

/-- What a builtin replies is good in the store it leaves, in which no reference is lost. -/
def Reply.Keeps (s : Store) : Reply → Prop
  | .value v s' => s'.WellFormed ∧ s.extent ≤ s'.extent ∧ v.Within s'.extent
  | .failure _ s' => s'.WellFormed ∧ s.extent ≤ s'.extent
  | .await f args pending s' => s'.WellFormed ∧ s.extent ≤ s'.extent ∧ f.Within s'.extent ∧
      (∀ v ∈ args, v.Within s'.extent) ∧ pending.Within s'.extent
  | .become f args s' => s'.WellFormed ∧ s.extent ≤ s'.extent ∧ f.Within s'.extent ∧
      ∀ v ∈ args, v.Within s'.extent

/-- The store of a state. -/
def Machine.store : Machine → Store
  | evaluating _ _ _ s | calling _ _ _ s | giving _ _ s | raising _ _ s => s

/-- The stack of a state. -/
def Machine.stack : Machine → List Frame
  | evaluating _ _ stack _ | calling _ _ stack _ | giving _ stack _ | raising _ stack _ => stack

/-- The values that a state is working on. -/
def Machine.values : Machine → List Value
  | calling f args _ _ => f :: args
  | giving v _ _ => [v]
  | _ => []

/-- All values of a state are good in its store. -/
structure Machine.WellFormed (m : Machine) : Prop where
  store : m.store.WellFormed
  stack : ∀ frame ∈ m.stack, frame.Within m.store.extent
  values : ∀ v ∈ m.values, v.Within m.store.extent

section Extents

variable {x y : Extent}

/-- A property of all values of a list that holds in a larger extent too. -/
theorem forall_within_mono {vs : List Value} (h : ∀ v ∈ vs, v.Within x) (hle : x ≤ y) :
    ∀ v ∈ vs, v.Within y := fun v hv => (h v hv).mono hle

/-- A waiting builtin within an extent is within every larger one. -/
theorem Pending.Within.mono {pending : Pending} (h : pending.Within x) (hle : x ≤ y) :
    pending.Within y := by
  cases pending with
  | mapping f done rest =>
    exact ⟨h.1.mono hle, forall_within_mono h.2.1 hle, forall_within_mono h.2.2 hle⟩
  | filtering f item done rest =>
    exact ⟨h.1.mono hle, h.2.1.mono hle, forall_within_mono h.2.2.1 hle,
      forall_within_mono h.2.2.2 hle⟩
  | visiting f rest => exact ⟨h.1.mono hle, forall_within_mono h.2 hle⟩
  | finding f item rest => exact ⟨h.1.mono hle, h.2.1.mono hle, forall_within_mono h.2.2 hle⟩
  | folding f rest => exact ⟨h.1.mono hle, forall_within_mono h.2 hle⟩
  | sorting f next =>
    refine ⟨h.1.mono hle, fun answer => (h.2 answer).mono ?_ ?_⟩
    · exact fun v hv => hv.mono hle
    · exact fun items hitems => forall_within_mono hitems hle

/-- A frame within an extent is within every larger one. -/
theorem Frame.Within.mono {frame : Frame} (h : frame.Within x) (hle : x ≤ y) :
    frame.Within y := by
  cases frame with
  | operand f op done rest scope => exact ⟨h.1.mono hle, forall_within_mono h.2 hle⟩
  | methodName p function maker methods plan => exact ⟨h.1.mono hle, h.2.mono hle⟩
  | methodFunction method p maker methods plan => exact ⟨h.1.mono hle, h.2.mono hle⟩
  | construct created => exact Value.Within.mono h hle
  | builtin pending => exact Pending.Within.mono h hle
  | _ => trivial

end Extents

namespace Reply

variable {s : Store}

/-- A new array of good values is good in the store it leaves. -/
theorem keeps_array (hs : s.WellFormed) {items : List Value}
    (hitems : ∀ v ∈ items, v.Within s.extent) : (array s items).Keeps s := by
  refine ⟨hs.newArray ?_, s.extent_le_newArray _, s.within_newArray _⟩
  simpa using hitems

/-- Mapping good values keeps what is good. -/
theorem keeps_map (hs : s.WellFormed) {f : Value} {done rest : List Value}
    (hf : f.Within s.extent) (hdone : ∀ v ∈ done, v.Within s.extent)
    (hrest : ∀ v ∈ rest, v.Within s.extent) : (map s f done rest).Keeps s := by
  cases rest with
  | nil => exact keeps_array hs (by simpa using hdone)
  | cons x rest =>
    simp only [List.mem_cons, forall_eq_or_imp] at hrest
    exact ⟨hs, Extent.le_refl _, hf, by simpa using hrest.1, hf, hdone, hrest.2⟩

/-- Filtering good values keeps what is good. -/
theorem keeps_filter (hs : s.WellFormed) {f : Value} {done rest : List Value}
    (hf : f.Within s.extent) (hdone : ∀ v ∈ done, v.Within s.extent)
    (hrest : ∀ v ∈ rest, v.Within s.extent) : (filter s f done rest).Keeps s := by
  cases rest with
  | nil => exact keeps_array hs (by simpa using hdone)
  | cons x rest =>
    simp only [List.mem_cons, forall_eq_or_imp] at hrest
    exact ⟨hs, Extent.le_refl _, hf, by simpa using hrest.1, hf, hrest.1, hdone, hrest.2⟩

/-- Visiting good values keeps what is good. -/
theorem keeps_visit (hs : s.WellFormed) {f : Value} {rest : List Value} (hf : f.Within s.extent)
    (hrest : ∀ v ∈ rest, v.Within s.extent) : (visit s f rest).Keeps s := by
  cases rest with
  | nil => exact ⟨hs, Extent.le_refl _, trivial⟩
  | cons x rest =>
    simp only [List.mem_cons, forall_eq_or_imp] at hrest
    exact ⟨hs, Extent.le_refl _, hf, by simpa using hrest.1, hf, hrest.2⟩

/-- Finding among good values keeps what is good. -/
theorem keeps_find (hs : s.WellFormed) {f : Value} {rest : List Value} (hf : f.Within s.extent)
    (hrest : ∀ v ∈ rest, v.Within s.extent) : (find s f rest).Keeps s := by
  cases rest with
  | nil => exact ⟨hs, Extent.le_refl _, trivial⟩
  | cons x rest =>
    simp only [List.mem_cons, forall_eq_or_imp] at hrest
    exact ⟨hs, Extent.le_refl _, hf, by simpa using hrest.1, hf, hrest.1, hrest.2⟩

/-- Folding good values keeps what is good. -/
theorem keeps_fold (hs : s.WellFormed) {f acc : Value} {rest : List Value}
    (hf : f.Within s.extent) (hacc : acc.Within s.extent)
    (hrest : ∀ v ∈ rest, v.Within s.extent) : (fold s f acc rest).Keeps s := by
  cases rest with
  | nil => exact ⟨hs, Extent.le_refl _, hacc⟩
  | cons x rest =>
    simp only [List.mem_cons, forall_eq_or_imp] at hrest
    exact ⟨hs, Extent.le_refl _, hf, by simpa using ⟨hacc, hrest.1⟩, hf, hrest.2⟩

/-- Sorting by a function keeps what is good, if all that is asked about and given is. -/
theorem keeps_sort (hs : s.WellFormed) {f : Value} {query : Query Value (List Value)}
    (hf : f.Within s.extent)
    (hquery : query.All (Value.Within s.extent) fun items => ∀ v ∈ items, v.Within s.extent) :
    (sort s f query).Keeps s := by
  cases query with
  | done items => exact keeps_array hs hquery
  | ask x y next =>
    obtain ⟨hx, hy, hnext⟩ := hquery
    exact ⟨hs, Extent.le_refl _, hf, by simpa using ⟨hx, hy⟩, hf, hnext⟩

end Reply

/-- Builtins keep stores well formed. -/
theorem Answers.keeps {s : Store} {args : List Value} {b : Builtin} {r : Reply}
    (h : Answers s args b r) (hs : s.WellFormed) (hargs : ∀ v ∈ args, v.Within s.extent) :
    r.Keeps s := by
  have hitems (r : ArrayRef) : ∀ v ∈ (s.items r).toList, v.Within s.extent :=
    fun v hv => hs.items r v (Array.mem_def.mpr hv)
  cases h with
  | failure b cause => exact ⟨hs, Extent.le_refl _⟩
  | value b hv => exact ⟨hs, Extent.le_refl _, hs.atHand hargs hv⟩
  | array b hvs => exact Reply.keeps_array hs fun v hv => hs.atHand hargs (hvs v hv)
  | random =>
    exact ⟨⟨hs.scopes, hs.arrays, hs.instances, hs.classes⟩, Extent.le_refl _, trivial⟩
  | refuse hb cause output =>
    exact ⟨⟨hs.scopes, hs.arrays, hs.instances, hs.classes⟩, Extent.le_refl _⟩
  | write hb hv output =>
    exact ⟨⟨hs.scopes, hs.arrays, hs.instances, hs.classes⟩, Extent.le_refl _, hs.atHand hargs hv⟩
  | push x hargs' =>
    subst hargs'
    simp only [List.mem_cons, forall_eq_or_imp] at hargs
    refine ⟨hs.pushItems hargs.2 _, ?_, trivial⟩
    rw [Store.extent_pushItems]
    exact Extent.le_refl _
  | pop hv =>
    refine ⟨hs.popItem _, ?_, ?_⟩ <;> rw [Store.extent_popItem]
    · exact Extent.le_refl _
    · exact hs.items _ _ hv
  | put name hv =>
    refine ⟨hs.putField (hargs _ hv) _ name, ?_, ?_⟩ <;> rw [Store.extent_putField]
    · exact Extent.le_refl _
    · exact hargs _ hv
  | map hargs' _ =>
    subst hargs'
    exact Reply.keeps_map hs (hargs _ (by simp)) nofun (hitems _)
  | filter hargs' _ =>
    subst hargs'
    exact Reply.keeps_filter hs (hargs _ (by simp)) nofun (hitems _)
  | forEach hargs' _ =>
    subst hargs'
    exact Reply.keeps_visit hs (hargs _ (by simp)) (hitems _)
  | find hargs' _ =>
    subst hargs'
    exact Reply.keeps_find hs (hargs _ (by simp)) (hitems _)
  | reduce hargs' _ =>
    subst hargs'
    exact Reply.keeps_fold hs (hargs _ (by simp)) (hargs _ (by simp)) (hitems _)
  | sort hargs' _ =>
    subst hargs'
    refine Reply.keeps_sort hs (hargs _ (by simp)) ?_
    refine (Sorting.all_sort _ (hitems _)).mono (fun _ h => h) fun result hperm v hv => ?_
    exact hitems _ v (hperm.mem_iff.mpr hv)
  | @call r name rest f hargs' hf =>
    subst hargs'
    simp only [List.mem_cons, forall_eq_or_imp] at hargs
    have hclass : s.parentOf r ≤ s.classes.size := by
      obtain ⟨info, hinfo, -⟩ := Option.bind_eq_some_iff.mp hf
      exact Nat.le_of_lt (Array.getElem?_eq_some_iff.mp hinfo).choose
    refine ⟨hs, Extent.le_refl _, (hs.method hf).mono ⟨Nat.le_refl _, Nat.le_refl _, hclass,
      Nat.le_refl _⟩, ?_⟩
    simpa using ⟨hargs.1, hargs.2.2⟩

/-- A waiting builtin that goes on keeps stores well formed. -/
theorem Pending.keeps_resume {s : Store} {v : Value} {pending : Pending} (hs : s.WellFormed)
    (hv : v.Within s.extent) (h : pending.Within s.extent) : (pending.resume s v).Keeps s := by
  cases pending with
  | mapping f done rest =>
    refine Reply.keeps_map hs h.1 ?_ h.2.2
    simpa using ⟨hv, h.2.1⟩
  | filtering f item done rest =>
    refine Reply.keeps_filter hs h.1 ?_ h.2.2.2
    split_ifs
    · simpa using ⟨h.2.1, h.2.2.1⟩
    · exact h.2.2.1
  | visiting f rest => exact Reply.keeps_visit hs h.1 h.2
  | finding f item rest =>
    rw [resume]
    split_ifs
    · exact ⟨hs, Extent.le_refl _, h.2.1⟩
    · exact Reply.keeps_find hs h.1 h.2.2
  | folding f rest => exact Reply.keeps_fold hs h.1 hv h.2
  | sorting f next =>
    rw [resume]
    split
    · exact ⟨hs, Extent.le_refl _⟩
    · exact Reply.keeps_sort hs h.1 (h.2 _)

/-- Counters say nothing about values. -/
theorem Store.WellFormed.counters {s : Store} (h : s.WellFormed) (steps depth : Nat) :
    { s with steps := steps, depth := depth }.WellFormed :=
  ⟨h.scopes, h.arrays, h.instances, h.classes⟩

namespace Machine

section States

variable {s : Store} {stack : List Frame}

/-- An evaluation in a good store is a well-formed state. -/
theorem wellFormed_evaluating (hs : s.WellFormed) (hstack : ∀ frame ∈ stack, frame.Within s.extent)
    (e : Expr) (scope : ScopeRef) : (evaluating e scope stack s).WellFormed :=
  ⟨hs, hstack, nofun⟩

/-- A call of a good value with good arguments is a well-formed state. -/
theorem wellFormed_calling (hs : s.WellFormed) (hstack : ∀ frame ∈ stack, frame.Within s.extent)
    {f : Value} {args : List Value} (hf : f.Within s.extent)
    (hargs : ∀ v ∈ args, v.Within s.extent) : (calling f args stack s).WellFormed :=
  ⟨hs, hstack, List.forall_mem_cons.mpr ⟨hf, hargs⟩⟩

/-- A good value that is handed over is a well-formed state. -/
theorem wellFormed_giving (hs : s.WellFormed) (hstack : ∀ frame ∈ stack, frame.Within s.extent)
    {v : Value} (hv : v.Within s.extent) : (giving v stack s).WellFormed :=
  ⟨hs, hstack, List.forall_mem_cons.mpr ⟨hv, nofun⟩⟩

/-- A fault that is raised in a good store is a well-formed state. -/
theorem wellFormed_raising (hs : s.WellFormed) (hstack : ∀ frame ∈ stack, frame.Within s.extent)
    (fault : Fault) : (raising fault stack s).WellFormed :=
  ⟨hs, hstack, nofun⟩

/-- Frames that are good stay so when the store grows. -/
theorem forall_frame_mono (hstack : ∀ frame ∈ stack, frame.Within s.extent) {s' : Store}
    (hle : s.extent ≤ s'.extent) : ∀ frame ∈ stack, frame.Within s'.extent :=
  fun frame hframe => (hstack frame hframe).mono hle

/-- A good reply leads to a well-formed state. -/
theorem wellFormed_reply (hstack : ∀ frame ∈ stack, frame.Within s.extent) {r : Reply}
    (hr : r.Keeps s) : (reply r stack).WellFormed := by
  cases r with
  | value v s' =>
    obtain ⟨hs', hle, hv⟩ := hr
    exact wellFormed_giving hs' (forall_frame_mono hstack hle) hv
  | failure cause s' =>
    obtain ⟨hs', hle⟩ := hr
    exact wellFormed_raising hs' (forall_frame_mono hstack hle) _
  | await f args pending s' =>
    obtain ⟨hs', hle, hf, hargs, hpending⟩ := hr
    refine wellFormed_calling hs' ?_ hf hargs
    exact List.forall_mem_cons.mpr ⟨hpending, forall_frame_mono hstack hle⟩
  | become f args s' =>
    obtain ⟨hs', hle, hf, hargs⟩ := hr
    exact wellFormed_calling hs' (forall_frame_mono hstack hle) hf hargs

variable (hs : s.WellFormed) (hstack : ∀ frame ∈ stack, frame.Within s.extent)
include hs hstack

/-- Entering an application of good values leads to a well-formed state. -/
theorem wellFormed_enter {f : Value} {args : List Value} (hf : f.Within s.extent)
    (hargs : ∀ v ∈ args, v.Within s.extent) (op : Expr) :
    (enter f op args stack s).WellFormed := by
  unfold enter
  split
  · refine wellFormed_calling (hs.record _ _) ?_ ?_ ?_ <;> rw [Store.extent_record]
    · exact List.forall_mem_cons.mpr ⟨trivial, hstack⟩
    · exact hf
    · exact hargs
  · exact wellFormed_calling hs hstack hf hargs

/-- Going on with the next operand leads to a well-formed state. -/
theorem wellFormed_operands {f : Value} {done : List Value} (hf : f.Within s.extent)
    (hdone : ∀ v ∈ done, v.Within s.extent) (op : Expr) (rest : List Expr) (scope : ScopeRef) :
    (operands f op done rest scope stack s).WellFormed := by
  cases rest with
  | nil =>
    refine wellFormed_enter hs hstack hf ?_ op
    simpa using hdone
  | cons e rest =>
    refine wellFormed_evaluating hs ?_ e scope
    exact List.forall_mem_cons.mpr ⟨⟨hf, hdone⟩, hstack⟩

/-- Going on with the next member of a class leads to a well-formed state. -/
theorem wellFormed_nextMember {maker : Value} {methods : Methods} (hmaker : maker.Within s.extent)
    (hmethods : methods.Within s.extent) (plan : ClassPlan) :
    (nextMember maker methods plan stack s).WellFormed := by
  unfold nextMember
  split
  · have hinfo : ClassInfo.Within s.extent ⟨plan.name, maker, methods⟩ := ⟨hmaker, hmethods⟩
    have hv := s.within_newClass ⟨plan.name, maker, methods⟩
    exact wellFormed_giving ((hs.newClass hinfo).define hv _ _)
      (forall_frame_mono hstack (s.extent_le_newClass _)) hv
  · refine wellFormed_evaluating hs ?_ _ _
    exact List.forall_mem_cons.mpr ⟨⟨hmaker, hmethods⟩, hstack⟩

/-- Beginning a class form leads to a well-formed state. -/
theorem wellFormed_beginClass (args : List Expr) (scope : ScopeRef) :
    (beginClass args scope stack s).WellFormed := by
  unfold beginClass
  split
  · rename_i name maker rest
    split
    · split
      · refine wellFormed_evaluating hs ?_ maker scope
        exact List.forall_mem_cons.mpr ⟨by exact trivial, hstack⟩
      · exact wellFormed_raising hs hstack _
    · exact wellFormed_raising hs hstack _
  · exact wellFormed_raising hs hstack _

/-- Beginning a form leads to a well-formed state. -/
theorem wellFormed_begin (form : Form) (args : List Expr) (scope : ScopeRef) :
    (begin form args scope stack s).WellFormed := by
  have heval (e : Expr) (frame : Frame) (hframe : frame.Within s.extent) :
      (evaluating e scope (frame :: stack) s).WellFormed :=
    wellFormed_evaluating hs (List.forall_mem_cons.mpr ⟨hframe, hstack⟩) e scope
  have hfail (fault : Fault) : (raising fault stack s).WellFormed := wellFormed_raising hs hstack _
  cases form with
  | branch | loop | define | assign =>
    simp only [begin]
    split
    · exact heval _ _ trivial
    · exact hfail _
  | sequence =>
    cases args with
    | nil => exact wellFormed_giving hs hstack trivial
    | cons e rest => exact heval _ _ trivial
  | function =>
    simp only [begin]
    split
    · exact hfail _
    · rename_i body hbody
      split
      · rename_i params hparams
        exact wellFormed_giving (hs.newClosure params body scope)
          (forall_frame_mono hstack (s.extent_le_newClosure params body scope))
          (s.within_newClosure params body scope)
      · exact hfail _
  | classForm => exact wellFormed_beginClass hs hstack args scope

/-- Starting an evaluation leads to a well-formed state. -/
theorem wellFormed_start (e : Expr) (scope : ScopeRef) : (start e scope stack s).WellFormed := by
  cases e with
  | number x p => exact wellFormed_giving hs hstack trivial
  | string t p => exact wellFormed_giving hs hstack trivial
  | word name p =>
    simp only [start]
    split
    · rename_i v hv
      exact wellFormed_giving hs hstack (hs.lookup hv)
    · exact wellFormed_raising hs hstack _
  | apply op args =>
    have hs' := hs.counters s.steps (s.depth + 1)
    have hstack' : ∀ frame ∈ .application op :: stack, frame.Within s.extent :=
      List.forall_mem_cons.mpr ⟨trivial, hstack⟩
    have hstack'' : ∀ frame ∈ .operator op args scope :: .application op :: stack,
        frame.Within s.extent := List.forall_mem_cons.mpr ⟨trivial, hstack'⟩
    have heval := wellFormed_evaluating hs' hstack'' op scope
    simp only [start]
    split
    · split
      · exact wellFormed_begin hs' hstack' _ args scope
      · exact heval
    · exact heval

/-- Evaluating an expression leads to a well-formed state. -/
theorem wellFormed_eval (limits : Limits) (e : Expr) (scope : ScopeRef) :
    (eval limits e scope stack s).WellFormed := by
  have hs' := hs.counters (s.steps + 1) s.depth
  simp only [eval]
  split
  · exact wellFormed_raising hs' hstack _
  · split
    · exact wellFormed_raising hs' hstack _
    · exact wellFormed_start hs' hstack e scope

/-- Calling a good value with good arguments leads to a well-formed state. -/
theorem wellFormed_call {f : Value} {args : List Value} (hf : f.Within s.extent)
    (hargs : ∀ v ∈ args, v.Within s.extent) : (call f args stack s).WellFormed := by
  have hfail (cause : Cause) : (fail cause stack s).WellFormed := wellFormed_raising hs hstack _
  cases f with
  | closure r =>
    simp only [call]
    split
    · exact hfail _
    · rename_i c hc
      split
      · exact hfail _
      · refine wellFormed_evaluating (hs.newScope ?_ _) hstack _ _
        refine Bindings.within_ofList fun entry hentry => hargs _ ?_
        exact (List.of_mem_zip hentry).2
  | builtin b home => exact wellFormed_reply hstack ((Builtin.run_answers b s args).keeps hs hargs)
  | classRef r =>
    simp only [call]
    split
    · exact hfail _
    · rename_i info hinfo
      have hle := s.extent_le_bear r
      have hmaker : info.maker.Within s.extent :=
        (hs.classes r info hinfo).1.mono
          ⟨Nat.le_refl _, Nat.le_refl _, Nat.le_of_lt hf, Nat.le_refl _⟩
      have hv := s.within_bear r
      refine wellFormed_calling (hs.bear r) ?_ (hmaker.mono hle) ?_
      · exact List.forall_mem_cons.mpr ⟨hv, forall_frame_mono hstack hle⟩
      · exact List.forall_mem_cons.mpr ⟨hv, forall_within_mono hargs hle⟩
  | _ => exact hfail _

/-- Handing a good value to a good frame leads to a well-formed state. -/
theorem wellFormed_resume {v : Value} (hv : v.Within s.extent) {frame : Frame}
    (hframe : frame.Within s.extent) : (resume v frame stack s).WellFormed := by
  have heval (e : Expr) (scope : ScopeRef) (frame : Frame) (hframe : frame.Within s.extent) :
      (evaluating e scope (frame :: stack) s).WellFormed :=
    wellFormed_evaluating hs (List.forall_mem_cons.mpr ⟨hframe, hstack⟩) e scope
  have hfail (fault : Fault) : (raising fault stack s).WellFormed := wellFormed_raising hs hstack _
  cases frame with
  | application op => exact wellFormed_giving (hs.counters s.steps (s.depth - 1)) hstack hv
  | operator op args scope =>
    simp only [resume]
    split
    · exact wellFormed_operands hs hstack hv (List.forall_mem_nil _) op args scope
    · exact hfail _
  | operand f op done rest scope =>
    exact wellFormed_operands hs hstack hframe.1 (List.forall_mem_cons.mpr ⟨hv, hframe.2⟩) op rest
      scope
  | traced name =>
    refine wellFormed_giving (hs.record _ _) ?_ ?_ <;> rw [Store.extent_record]
    · exact hstack
    · exact hv
  | branch yes no scope => exact wellFormed_evaluating hs hstack _ _
  | loopTest test body scope =>
    simp only [resume]
    split
    · exact heval _ _ _ trivial
    · exact wellFormed_giving hs hstack trivial
  | loopBody test body scope => exact heval _ _ _ trivial
  | sequence rest scope =>
    cases rest with
    | nil => exact wellFormed_giving hs hstack hv
    | cons e rest => exact heval _ _ _ trivial
  | define name scope =>
    have hs' := hs.nameClosure v name
    have hv' : v.Within (s.nameClosure v name).extent := by rwa [Store.extent_nameClosure]
    refine wellFormed_giving (hs'.define hv' scope name) ?_ hv'
    rwa [Store.extent_define, Store.extent_nameClosure]
  | assign name p scope =>
    simp only [resume]
    split
    · exact wellFormed_giving (hs.define hv _ name) hstack hv
    · exact hfail _
  | classMaker p plan =>
    simp only [resume]
    split
    · exact wellFormed_nextMember hs hstack hv Methods.within_empty plan
    · exact hfail _
  | methodName p function maker methods plan =>
    simp only [resume]
    split
    · exact heval _ _ _ hframe
    · exact hfail _
  | methodFunction name p maker methods plan =>
    simp only [resume]
    split
    · have hextent := s.extent_nameClosure v (plan.name ++ "." ++ name)
      refine wellFormed_nextMember (hs.nameClosure v _) ?_ ?_ ?_ plan <;> rw [hextent]
      · exact hstack
      · exact hframe.1
      · exact hframe.2.put hv name
    · exact hfail _
  | construct created => exact wellFormed_giving hs hstack hframe
  | builtin pending => exact wellFormed_reply hstack (Pending.keeps_resume hs hv hframe)

/-- Handing a fault to a frame leads to a well-formed state. -/
theorem wellFormed_unwind (fault : Fault) (frame : Frame) :
    (unwind fault frame stack s).WellFormed := by
  cases frame with
  | application op => exact wellFormed_raising (hs.counters s.steps (s.depth - 1)) hstack _
  | traced name =>
    refine wellFormed_raising (hs.record _ _) ?_ _
    rwa [Store.extent_record]
  | _ => exact wellFormed_raising hs hstack _

end States

/-- A step from a well-formed state leads to one. -/
theorem WellFormed.step {limits : Limits} {m m' : Machine} (h : m.WellFormed)
    (hstep : step limits m = .inl m') : m'.WellFormed := by
  obtain ⟨hs, hstack, hvalues⟩ := h
  cases m with
  | evaluating e scope stack s =>
    obtain rfl := Sum.inl.inj hstep
    exact wellFormed_eval hs hstack limits e scope
  | calling f args stack s =>
    obtain rfl := Sum.inl.inj hstep
    obtain ⟨hf, hargs⟩ := List.forall_mem_cons.mp hvalues
    exact wellFormed_call hs hstack hf hargs
  | giving v stack s =>
    cases stack with
    | nil => exact nomatch hstep
    | cons frame stack =>
      obtain rfl := Sum.inl.inj hstep
      obtain ⟨hframe, hstack⟩ := List.forall_mem_cons.mp hstack
      exact wellFormed_resume hs hstack (hvalues v List.mem_cons_self) hframe
  | raising fault stack s =>
    cases stack with
    | nil => exact nomatch hstep
    | cons frame stack =>
      obtain rfl := Sum.inl.inj hstep
      exact wellFormed_unwind hs (List.forall_mem_cons.mp hstack).2 fault frame

/-- The store that a run leaves is well formed. -/
theorem WellFormed.run {limits : Limits} {fuel : Nat} {m : Machine} {o : Outcome}
    (h : m.WellFormed) (hrun : run limits fuel m = some o) : o.store.WellFormed := by
  induction fuel generalizing m with
  | zero => exact nomatch hrun
  | succ fuel ih =>
    rw [Machine.run] at hrun
    split at hrun
    · rename_i m' hstep
      exact ih (h.step hstep) hrun
    · rename_i outcome hstep
      obtain rfl := Option.some.inj hrun
      cases m with
      | evaluating | calling => exact nomatch hstep
      | giving v stack s | raising fault stack s =>
        cases stack with
        | nil =>
          obtain rfl := Sum.inr.inj hstep
          exact h.store
        | cons frame stack => exact nomatch hstep

end Machine

/-- The stores that hosts and programs make: scopes are made, evaluators with an output, a record of
calls, a supply and counters of their own come and go, and programs run. -/
inductive Store.Reachable : Store → Prop where
  | empty (output : Output) (traced : Bool) : Reachable (.empty output traced)
  | newTopScope {s : Store} (hs : Reachable s) : Reachable s.newTopScope.2
  | newScope {s : Store} (hs : Reachable s) (outer : Option ScopeRef) :
      Reachable (s.newScope outer .empty).2
  | handOver {s : Store} (hs : Reachable s) (output : Output) (events : Option (List CallEvent))
      (supply : Supply) (steps depth : Nat) :
      Reachable { s with
        output := output, events := events, supply := supply, steps := steps, depth := depth }
  | execute {s : Store} (hs : Reachable s) {limits : Limits} {fuel : Nat} {src : Text}
      {scope : ScopeRef} {o : Outcome} (ho : execute limits fuel src scope s = some o) :
      Reachable o.store

/-- The first store of an evaluator is one that hosts make. -/
theorem Store.reachable_initial (output : Output) (traced : Bool) :
    (Store.initial output traced).2.Reachable :=
  .newScope (.newTopScope (.empty output traced)) _

/-- A run of a program leaves a well-formed store. -/
theorem Store.WellFormed.execute {s : Store} (h : s.WellFormed) {limits : Limits} {fuel : Nat}
    {src : Text} {scope : ScopeRef} {o : Outcome}
    (ho : TinyScript.execute limits fuel src scope s = some o) : o.store.WellFormed := by
  unfold TinyScript.execute at ho
  split at ho
  · obtain rfl := Option.some.inj ho
    exact h
  · exact (Machine.wellFormed_evaluating (h.counters 0 s.depth) (List.forall_mem_nil _) _ _).run ho

/-- Whatever hosts and programs do, all values stay good. -/
theorem Store.Reachable.wellFormed {s : Store} (h : s.Reachable) : s.WellFormed := by
  induction h with
  | empty output traced =>
    constructor <;> simp [Store.empty]
  | newTopScope _ ih =>
    refine ih.newScope (Bindings.within_ofList ?_) none
    simp [Value.Within]
  | newScope _ outer ih => exact ih.newScope Bindings.within_empty outer
  | handOver _ output events supply steps depth ih =>
    exact ⟨ih.scopes, ih.arrays, ih.instances, ih.classes⟩
  | execute _ ho ih => exact ih.execute ho

end TinyScript
