import TinyScript.Proofs.PathTexts
import TinyScript.Proofs.WellFormed

/-!
# What steps do not look at

Programs print and their calls are recorded, but no step reads what was printed or recorded, and of
the stack a step sees the top only. So a state can be looked at with other texts in its output,
without its record, or with more frames further down: what is seen of a step is a step of what is
seen. Only the steps that end a recorded call may not be seen.
-/

namespace TinyScript

/-- A way to look at outputs that shows which writes are refused, and why, and what is written. -/
structure OutputView where
  output : Output → Output
  refusal?_output (o : Output) : (output o).refusal? = o.refusal?
  write_output (o : Output) (t : Text) : (output o).write t = output (o.write t)

/-- The view that shows an output as it is. -/
def OutputView.plain : OutputView := ⟨id, fun _ => rfl, fun _ _ => rfl⟩

/-- A way to look at stores: with another output, which takes the same writes, and with another
record of calls. -/
structure StoreView extends OutputView where
  events : Option (List CallEvent) → Option (List CallEvent)

namespace StoreView

variable (view : StoreView)

/-- What is seen of several writes are these writes. -/
theorem writeAll_output (o : Output) (ts : List Text) :
    (view.output o).writeAll ts = view.output (o.writeAll ts) := by
  induction ts generalizing o with
  | nil => rfl
  | cons t ts ih =>
    simp only [Output.writeAll, List.foldl_cons, view.write_output] at ih ⊢
    exact ih _

/-- What is seen of a store. -/
def store (s : Store) : Store :=
  { s with output := view.output s.output, events := view.events s.events }

variable (s : Store)

/-- What is seen of naming a function is that it is named. -/
theorem store_nameClosure (v : Value) (name : Text) :
    view.store (s.nameClosure v name) = (view.store s).nameClosure v name := by
  cases v <;> rfl

/-- Texts along a path do not depend on what is not seen. -/
theorem pathText_store (n : Nat) (path : List Holder) (v : Value) :
    (view.store s).pathText n path v = s.pathText n path v := by
  induction n generalizing path v with
  | zero => cases v <;> rfl
  | succ n ih =>
    cases hv : Store.holder? v with
    | none =>
      rw [Store.pathText_plain _ hv, Store.pathText_plain _ hv]
      cases v <;> rfl
    | some h =>
      by_cases hmem : h ∈ path
      · rw [Store.pathText_inside _ hv hmem, Store.pathText_inside _ hv hmem]
        cases v <;> rfl
      · rw [Store.pathText_open _ hv hmem, Store.pathText_open _ hv hmem]
        have hpieces : (view.store s).pieces h = s.pieces h := by cases h <;> rfl
        rw [hpieces]
        apply congrArg Text.concat
        apply List.map_congr_left
        intro p _
        cases p with
        | text t => rfl
        | value w => exact ih (h :: path) w

/-- Texts of values do not depend on what is not seen. -/
theorem sourceText_store (v : Value) : (view.store s).sourceText v = s.sourceText v := by
  rw [s.sourceText_eq_pathText v (Nat.lt_succ_self _),
    (view.store s).sourceText_eq_pathText v (Nat.lt_succ_self _)]
  exact view.pathText_store s _ _ v

/-- No value is written in another way because of what was printed or recorded. -/
theorem display_store : (view.store s).display = s.display := by
  funext v
  have hsource := view.sourceText_store s v
  cases v with
  | string t => rfl
  | _ => exact hsource

/-- What is seen of a reply. -/
def reply : Reply → Reply
  | .value v s => .value v (view.store s)
  | .failure cause s => .failure cause (view.store s)
  | .await f args pending s => .await f args pending (view.store s)
  | .become f args s => .become f args (view.store s)

section Replies

variable (f : Value) (done rest : List Value)

/-- What is seen of mapping is mapping. -/
theorem reply_map : view.reply (.map s f done rest) = .map (view.store s) f done rest := by
  cases rest <;> rfl

/-- What is seen of filtering is filtering. -/
theorem reply_filter : view.reply (.filter s f done rest) = .filter (view.store s) f done rest := by
  cases rest <;> rfl

/-- What is seen of visiting is visiting. -/
theorem reply_visit : view.reply (.visit s f rest) = .visit (view.store s) f rest := by
  cases rest <;> rfl

/-- What is seen of finding is finding. -/
theorem reply_find : view.reply (.find s f rest) = .find (view.store s) f rest := by
  cases rest <;> rfl

/-- What is seen of folding is folding. -/
theorem reply_fold (acc : Value) :
    view.reply (.fold s f acc rest) = .fold (view.store s) f acc rest := by
  cases rest <;> rfl

/-- What is seen of sorting is sorting. -/
theorem reply_sort (query : Query Value (List Value)) :
    view.reply (.sort s f query) = .sort (view.store s) f query := by
  cases query <;> rfl

end Replies

/-- What is seen of a builtin that goes on is that it goes on. -/
theorem reply_resume (pending : Pending) (v : Value) :
    view.reply (pending.resume s v) = pending.resume (view.store s) v := by
  cases pending with
  | mapping => exact view.reply_map ..
  | filtering => exact view.reply_filter ..
  | visiting => exact view.reply_visit ..
  | finding =>
    simp only [Pending.resume]
    split
    · rfl
    · exact view.reply_find ..
  | folding => exact view.reply_fold ..
  | sorting =>
    simp only [Pending.resume]
    split
    · rfl
    · exact view.reply_sort ..

variable (b : Builtin) (args : List Value)

/-- What a builtin makes of its arguments does not depend on what is not seen. -/
theorem pureResult?_store : b.pureResult? (view.store s) args = b.pureResult? s args := by
  cases b with
  | add | concat => simp only [Builtin.pureResult?, display_store]
  | join =>
    simp only [Builtin.pureResult?, display_store]
    rfl
  | _ => rfl

/-- What a builtin is about to do does not depend on what is not seen. -/
theorem effect_store : b.effect (view.store s) args = b.effect s args := by
  cases b with
  | print => simp only [Builtin.effect, display_store]
  | _ => rfl

/-- Something is done to stores that does not depend on what is not seen of them. -/
def Respects (act : Store → Reply) : Prop := ∀ s, act (view.store s) = view.reply (act s)

/-- Going through an array with a function does not depend on what is not seen. -/
theorem respects_callback {start : Store → Value → List Value → Reply}
    (h : ∀ s f items, view.reply (start s f items) = start (view.store s) f items) :
    Yields view.Respects (b.callback s args start) := by
  apply Yields.bind
  intro r _
  apply Yields.bind
  intro f _
  exact fun s' => (h s' f _).symm

/-- No builtin does what depends on what is not seen. -/
theorem respects_effect : Yields view.Respects (b.effect s args) := by
  cases b with
  | random | array => exact fun _ => rfl
  | map => exact view.respects_callback _ _ _ fun s f items => view.reply_map s f [] items
  | filter => exact view.respects_callback _ _ _ fun s f items => view.reply_filter s f [] items
  | forEach => exact view.respects_callback _ _ _ view.reply_visit
  | find => exact view.respects_callback _ _ _ view.reply_find
  | reduce =>
    iterate 3
      apply Yields.bind
      intro _ _
    exact fun s => (view.reply_fold ..).symm
  | sort =>
    apply Yields.bind
    intro r _
    split
    · apply Yields.bind
      intro f _
      exact fun s => (view.reply_sort ..).symm
    · apply Yields.bind
      intro items _
      exact fun _ => rfl
  | reverse =>
    apply Yields.bind
    intro r _
    exact fun _ => rfl
  | push | split =>
    iterate 2
      apply Yields.bind
      intro _ _
    exact fun _ => rfl
  | pop =>
    apply Yields.bind
    intro r _
    split
    · exact fun _ => rfl
    · apply Yields.bind
      intro v _
      exact fun _ => rfl
  | put =>
    iterate 3
      apply Yields.bind
      intro _ _
    exact fun _ => rfl
  | slice =>
    apply Yields.bind
    intro v _
    cases v with
    | array r | string t =>
      iterate 3
        apply Yields.bind
        intro _ _
      exact fun _ => rfl
    | _ => exact trivial
  | call =>
    iterate 3
      apply Yields.bind
      intro _ _
    split
    · exact fun _ => rfl
    · exact trivial
  | print =>
    apply Yields.bind
    intro v _ s
    have houtput : (view.store s).output = view.output s.output := rfl
    simp only [houtput, view.refusal?_output, view.write_output]
    cases s.output.refusal? <;> rfl
  | help =>
    simp only [Builtin.effect]
    split_ifs
    all_goals
      iterate 2
        apply Yields.bind
        intro _ _
      intro s
      exact congrArg (fun o => Reply.value (.boolean true)
        { view.store s with output := o }) (view.writeAll_output s.output _)
  | _ => exact trivial

/-- A builtin answers what is seen of a store with what is seen of its answer. -/
theorem reply_run : view.reply (b.run s args) = b.run (view.store s) args := by
  simp only [Builtin.run, pureResult?_store, effect_store]
  split
  · rfl
  · split
    · rfl
    · rfl
    · have hact := view.respects_effect s b args
      split
      · rename_i act heffect
        rw [heffect] at hact
        exact (hact s).symm
      · rfl

end StoreView

/-- The name of the recorded call that a frame ends, if it ends one. -/
def Frame.tracedName? : Frame → Option Text
  | .traced name => some name
  | _ => none

/-- A state with something else made of its stack and of its store. -/
def Machine.map (frames : List Frame → List Frame) (stores : Store → Store) : Machine → Machine
  | evaluating e scope stack s => evaluating e scope (frames stack) (stores s)
  | calling f args stack s => calling f args (frames stack) (stores s)
  | giving v stack s => giving v (frames stack) (stores s)
  | raising fault stack s => raising fault (frames stack) (stores s)

/-- The state that hands an outcome to a stack. -/
def Outcome.onto (o : Outcome) (stack : List Frame) : Machine :=
  match o.result with
  | .ok v => .giving v stack o.store
  | .error fault => .raising fault stack o.store

/-- A run ends where its outcome has no frame left to be handed to. -/
theorem Machine.eq_onto_of_step {limits : Limits} {m : Machine} {o : Outcome}
    (h : step limits m = .inr o) : m = o.onto [] := by
  cases m with
  | evaluating | calling => cases h
  | giving v stack s =>
    cases stack with
    | nil =>
      obtain rfl := Sum.inr.inj h
      rfl
    | cons frame stack => cases h
  | raising fault stack s =>
    cases stack with
    | nil =>
      obtain rfl := Sum.inr.inj h
      rfl
    | cons frame stack => cases h

/-- A step does nothing but end a recorded call. -/
inductive Machine.EndsCall : Machine → Machine → Prop where
  | giving (v : Value) (name : Text) (stack : List Frame) (s : Store) :
      EndsCall (.giving v (.traced name :: stack) s) (.giving v stack (s.record .ends name))
  | raising (fault : Fault) (name : Text) (stack : List Frame) (s : Store) :
      EndsCall (.raising fault (.traced name :: stack) s)
        (.raising fault stack (s.record .ends name))

/-- A way to look at states: all frames on top are seen, except perhaps those that end a recorded
call, and what is seen of a call that begins is that it begins. -/
structure View extends StoreView where
  stack : List Frame → List Frame
  stack_cons {frame : Frame} (hframe : frame.tracedName? = none) (rest : List Frame) :
    stack (frame :: rest) = frame :: stack rest
  map_enter (f : Value) (op : Expr) (args : List Value) (rest : List Frame) (s : Store) :
    (Machine.enter f op args rest s).map stack toStoreView.store =
      Machine.enter f op args (stack rest) (toStoreView.store s)

namespace View

open Machine

/-- What is seen of a state. -/
def machine (view : View) (m : Machine) : Machine := m.map view.stack view.store

variable (view : View) {limits : Limits} (stack : List Frame) (s : Store)

/-- What is seen of a reply is what is seen of the builtin. -/
theorem machine_reply (r : Reply) :
    view.machine (reply r stack) = reply (view.toStoreView.reply r) (view.stack stack) := by
  cases r with
  | await => exact congrArg (calling _ _ · _) (view.stack_cons rfl stack)
  | _ => rfl

/-- What is seen of an evaluation below a frame that is seen. -/
theorem machine_evaluating_cons {frame : Frame} (hframe : frame.tracedName? = none) (e : Expr)
    (scope : ScopeRef) : view.machine (evaluating e scope (frame :: stack) s) =
      evaluating e scope (frame :: view.stack stack) (view.store s) :=
  congrArg (evaluating e scope · _) (view.stack_cons hframe stack)

/-- What is seen of going on with the next operand is going on with it. -/
theorem machine_operands (f : Value) (op : Expr) (done : List Value) (rest : List Expr)
    (scope : ScopeRef) : view.machine (operands f op done rest scope stack s) =
      operands f op done rest scope (view.stack stack) (view.store s) := by
  cases rest with
  | nil => exact view.map_enter ..
  | cons e rest => exact view.machine_evaluating_cons _ _ rfl ..

/-- What is seen of going on with the next member is going on with it. -/
theorem machine_nextMember (maker : Value) (methods : Methods) (plan : ClassPlan) :
    view.machine (nextMember maker methods plan stack s) =
      nextMember maker methods plan (view.stack stack) (view.store s) := by
  unfold nextMember
  split
  · rfl
  · exact view.machine_evaluating_cons _ _ rfl ..

/-- What is seen of the beginning of a form is its beginning. -/
theorem machine_begin (form : Form) (args : List Expr) (scope : ScopeRef) :
    view.machine (begin form args scope stack s) =
      begin form args scope (view.stack stack) (view.store s) := by
  cases form with
  | branch | loop | define | assign =>
    simp only [begin]
    split
    · exact view.machine_evaluating_cons _ _ rfl ..
    · rfl
  | sequence =>
    simp only [begin]
    split
    · rfl
    · exact view.machine_evaluating_cons _ _ rfl ..
  | function =>
    simp only [begin]
    split
    · rfl
    · split <;> rfl
  | classForm =>
    simp only [begin, beginClass]
    split
    · split
      · split
        · exact view.machine_evaluating_cons _ _ rfl ..
        · rfl
      · rfl
    · rfl

/-- What is seen of the start of an evaluation is its start. -/
theorem machine_start (e : Expr) (scope : ScopeRef) :
    view.machine (start e scope stack s) = start e scope (view.stack stack) (view.store s) := by
  cases e with
  | number | string => rfl
  | word name p =>
    have hlookup : (view.store s).lookup scope name = s.lookup scope name := rfl
    simp only [start, hlookup]
    split <;> rfl
  | apply op args =>
    have hstack : view.stack (.application op :: stack) = .application op :: view.stack stack :=
      view.stack_cons rfl stack
    simp only [start]
    split
    · split
      · rw [machine_begin, hstack]
        rfl
      · rw [machine_evaluating_cons _ _ _ rfl, hstack]
        rfl
    · rw [machine_evaluating_cons _ _ _ rfl, hstack]
      rfl

/-- What is seen of an evaluation is an evaluation. -/
theorem machine_eval (e : Expr) (scope : ScopeRef) :
    view.machine (eval limits e scope stack s) =
      eval limits e scope (view.stack stack) (view.store s) := by
  have hsteps : (view.store s).steps = s.steps := rfl
  have hdepth : (view.store s).depth = s.depth := rfl
  simp only [eval, hsteps, hdepth]
  split
  · rfl
  · split
    · rfl
    · exact view.machine_start ..

/-- What is seen of a call is a call. -/
theorem machine_call (f : Value) (args : List Value) :
    view.machine (call f args stack s) = call f args (view.stack stack) (view.store s) := by
  cases f with
  | closure r =>
    have hclosures : (view.store s).closures = s.closures := rfl
    simp only [call, hclosures]
    split
    · rfl
    · split <;> rfl
  | builtin b home => simp only [call, machine_reply, StoreView.reply_run]
  | classRef r =>
    have hclasses : (view.store s).classes = s.classes := rfl
    simp only [call, hclasses]
    split
    · rfl
    · exact congrArg (calling _ _ · _) (view.stack_cons rfl stack)
  | _ => rfl

/-- What is seen of handing a value to a frame that is seen is handing it over. -/
theorem machine_resume (v : Value) {frame : Frame} (hframe : frame.tracedName? = none) :
    view.machine (resume v frame stack s) = resume v frame (view.stack stack) (view.store s) := by
  cases frame with
  | traced => cases hframe
  | operator =>
    simp only [resume]
    split
    · exact view.machine_operands ..
    · rfl
  | operand => exact view.machine_operands ..
  | loopTest =>
    simp only [resume]
    split
    · exact view.machine_evaluating_cons _ _ rfl ..
    · rfl
  | loopBody => exact view.machine_evaluating_cons _ _ rfl ..
  | sequence rest =>
    cases rest with
    | nil => rfl
    | cons e rest => exact view.machine_evaluating_cons _ _ rfl ..
  | define name scope =>
    simp only [resume, ← view.store_nameClosure]
    rfl
  | assign name p scope =>
    have howner : (view.store s).owner scope name = s.owner scope name := rfl
    simp only [resume, howner]
    split <;> rfl
  | classMaker =>
    simp only [resume]
    split
    · exact view.machine_nextMember ..
    · rfl
  | methodName =>
    simp only [resume]
    split
    · exact view.machine_evaluating_cons _ _ rfl ..
    · rfl
  | methodFunction =>
    simp only [resume]
    split
    · rw [← view.store_nameClosure]
      exact view.machine_nextMember ..
    · rfl
  | builtin pending => simp only [resume, machine_reply, StoreView.reply_resume]
  | _ => rfl

/-- What is seen of handing a fault to a frame that is seen is handing it over. -/
theorem machine_unwind (fault : Fault) {frame : Frame} (hframe : frame.tracedName? = none) :
    view.machine (unwind fault frame stack s) =
      unwind fault frame (view.stack stack) (view.store s) := by
  cases frame with
  | traced => cases hframe
  | _ => rfl

/-- What is seen of a step is a step of what is seen, unless it only ends a recorded call. -/
theorem step_machine {m m' : Machine} (h : step limits m = .inl m') :
    m.EndsCall m' ∨ step limits (view.machine m) = .inl (view.machine m') := by
  cases m with
  | evaluating e scope stack s =>
    obtain rfl := Sum.inl.inj h
    exact .inr (congrArg Sum.inl (view.machine_eval stack s e scope).symm)
  | calling f args stack s =>
    obtain rfl := Sum.inl.inj h
    exact .inr (congrArg Sum.inl (view.machine_call stack s f args).symm)
  | giving v stack s =>
    cases stack with
    | nil => cases h
    | cons frame stack =>
      obtain rfl := Sum.inl.inj h
      cases hframe : frame.tracedName? with
      | some name =>
        cases frame <;> cases hframe
        exact .inl (.giving v name stack s)
      | none =>
        right
        rw [machine, Machine.map, view.stack_cons hframe]
        exact congrArg Sum.inl (view.machine_resume stack s v hframe).symm
  | raising fault stack s =>
    cases stack with
    | nil => cases h
    | cons frame stack =>
      obtain rfl := Sum.inl.inj h
      cases hframe : frame.tracedName? with
      | some name =>
        cases frame <;> cases hframe
        exact .inl (.raising fault name stack s)
      | none =>
        right
        rw [machine, Machine.map, view.stack_cons hframe]
        exact congrArg Sum.inl (view.machine_unwind stack s fault hframe).symm

section Keeping

variable (output : OutputView) (frames : List Frame → List Frame)
  (hframes : ∀ frame rest, frames (frame :: rest) = frame :: frames rest)

/-- The view with another output and another stack that shows all frames on top and the record. -/
def keeping : View where
  toOutputView := output
  events := id
  stack := frames
  stack_cons _ := hframes _
  map_enter f op args rest s := by
    obtain ⟨_, _, _, _, _, _, events, _, _, _⟩ := s
    cases events with
    | none => rfl
    | some events => exact congrArg (calling f args · _) (hframes _ rest)

/-- A view that shows the record shows what is recorded. -/
theorem store_record_keeping (s : Store) (phase : Phase) (name : Text) :
    (keeping output frames hframes).store (s.record phase name) =
      ((keeping output frames hframes).store s).record phase name := by
  obtain ⟨_, _, _, _, _, _, events, _, _, _⟩ := s
  cases events <;> rfl

/-- Where the record is shown, every step is seen. -/
theorem step_keeping {m m' : Machine} (h : step limits m = .inl m') :
    step limits ((keeping output frames hframes).machine m) =
      .inl ((keeping output frames hframes).machine m') := by
  rcases (keeping output frames hframes).step_machine h with hend | hstep
  · cases hend with
    | giving v name rest s =>
      simp only [machine, Machine.map, store_record_keeping]
      exact congrArg (fun stack => step limits (.giving v stack _)) (hframes _ rest)
    | raising fault name rest s =>
      simp only [machine, Machine.map, store_record_keeping]
      exact congrArg (fun stack => step limits (.raising fault stack _)) (hframes _ rest)
  · exact hstep

end Keeping

end View

/-- An output that continues another one. -/
def Output.continuing (o before : Output) : Output :=
  { o with written := o.written ++ before.written }

/-- A write comes behind what was printed before, wherever that is kept. -/
theorem Output.write_continuing (o before : Output) (t : Text) :
    (o.continuing before).write t = (o.write t).continuing before := by
  cases h : o.refusal? with
  | none =>
    have h' : (o.continuing before).refusal? = none := h
    rw [write_of_taken h', write_of_taken h]
    rfl
  | some why =>
    have h' : (o.continuing before).refusal? = some why := h
    rw [write_of_refused h', write_of_refused h]
    rfl

/-- The text of an output that continues another one stands behind the other text. -/
theorem Output.text_continuing (o before : Output) :
    (o.continuing before).text = before.text ++ o.text := by
  simp only [text, continuing, List.reverse_append, Text.concat_append]

/-- The view of states in which something was printed before. -/
def View.continuing (before : Output) : View :=
  .keeping ⟨(·.continuing before), fun _ => rfl, fun o t => o.write_continuing before t⟩ id
    fun _ _ => rfl

/-- A store in which something was printed before. -/
def Store.continuing (s : Store) (before : Output) : Store :=
  { s with output := s.output.continuing before }

/-- An outcome before which something was printed. -/
def Outcome.continuing (o : Outcome) (before : Output) : Outcome :=
  { o with store := o.store.continuing before }

variable {limits : Limits} {fuel : Nat} (before : Output)

/-- A run does not depend on what was printed before. -/
theorem Machine.run_continuing (m : Machine) :
    run limits fuel ((View.continuing before).machine m) =
      (run limits fuel m).map (·.continuing before) := by
  induction fuel generalizing m with
  | zero => rfl
  | succ fuel ih =>
    cases hstep : step limits m with
    | inl m' =>
      rw [run, run, View.continuing, View.step_keeping _ _ _ hstep, hstep]
      exact ih m'
    | inr o =>
      obtain rfl := eq_onto_of_step hstep
      obtain ⟨result, s⟩ := o
      cases result <;> rfl

/-- What a program does does not depend on what was printed before it: that stays, and what the
program prints comes behind it. -/
theorem execute_continuing (src : Text) (scope : ScopeRef) (s : Store) :
    execute limits fuel src scope (s.continuing before) =
      (execute limits fuel src scope s).map (·.continuing before) := by
  unfold execute
  cases parse src with
  | error fault => rfl
  | ok e => exact Machine.run_continuing before (.evaluating e scope [] { s with steps := 0 })

end TinyScript
