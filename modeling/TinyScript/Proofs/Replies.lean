import TinyScript.Proofs.Transitions

/-!
# What builtins leave alone

Builtins change arrays, fields of instances, the output and the numbers that are still to be drawn,
and nothing else of a store.
What is printed only grows. No step raises the fault of a text that is not read to its end.
-/

namespace TinyScript

/-- Two stores with the same scopes, closures, classes, records and counters. -/
structure Store.SameOutline (s s' : Store) : Prop where
  scopes : s'.scopes = s.scopes
  closures : s'.closures = s.closures
  classes : s'.classes = s.classes
  events : s'.events = s.events
  steps : s'.steps = s.steps
  depth : s'.depth = s.depth

/-- A store has its own outline. -/
theorem Store.SameOutline.refl (s : Store) : s.SameOutline s := ⟨rfl, rfl, rfl, rfl, rfl, rfl⟩

/-- What was written before is still there, and more writes were tried. -/
structure Output.Extends (o o' : Output) : Prop where
  written : o.written <:+ o'.written
  tried : o.tried ≤ o'.tried
  refusals : o'.refusals = o.refusals

/-- Every further write is taken. -/
def Output.Open (o : Output) : Prop := ∀ n, o.tried ≤ n → o.refusals n = none

/-- An output without bounds takes every write. -/
theorem Output.open_fresh : (Output.fresh none).Open := fun _ _ => rfl

/-- An output that takes every write takes the next one. -/
theorem Output.Open.refusal?_eq_none {o : Output} (h : o.Open) : o.refusal? = none :=
  h o.tried (Nat.le_refl _)

namespace Output.Extends

variable {o o' o'' : Output}

/-- Where nothing is written, nothing changes. -/
theorem refl (o : Output) : o.Extends o := ⟨List.suffix_refl _, Nat.le_refl _, rfl⟩

/-- More may be written behind what is written. -/
theorem trans (h : o.Extends o') (h' : o'.Extends o'') : o.Extends o'' :=
  ⟨h.written.trans h'.written, Nat.le_trans h.tried h'.tried, h'.refusals.trans h.refusals⟩

/-- An output that takes every write goes on so. -/
theorem isOpen (h : o.Extends o') (ho : o.Open) : o'.Open := by
  intro n hn
  rw [h.refusals]
  exact ho n (Nat.le_trans h.tried hn)

/-- The text of an output begins with the text that it had before. -/
theorem text (h : o.Extends o') : ∃ t, o'.text = o.text ++ t := by
  obtain ⟨newer, hnewer⟩ := h.written
  refine ⟨Text.concat newer.reverse, ?_⟩
  rw [Output.text, Output.text, ← hnewer, List.reverse_append, Text.concat_append]

/-- A write, taken or refused, leaves what was there. -/
theorem write (o : Output) (t : Text) : o.Extends (o.write t) := by
  cases h : o.refusal? with
  | none =>
    rw [write_of_taken h]
    exact ⟨List.suffix_cons _ _, Nat.le_succ _, rfl⟩
  | some why =>
    rw [write_of_refused h]
    exact ⟨List.suffix_refl _, Nat.le_succ _, rfl⟩

/-- Several writes leave what was there. -/
theorem writeAll (o : Output) (ts : List Text) : o.Extends (o.writeAll ts) := by
  induction ts generalizing o with
  | nil => exact refl o
  | cons t ts ih => exact (write o t).trans (ih _)

end Output.Extends

/-- A write that is taken comes behind everything that was written before. -/
theorem Output.text_write {o : Output} (h : o.refusal? = none) (t : Text) :
    (o.write t).text = o.text ++ t := by
  simp [write_of_taken h, text, Text.concat_append, Text.concat_cons]

section Outlines

variable (s : Store) (f : Value) (done rest : List Value)

/-- Mapping leaves the outline of a store alone. -/
theorem Reply.sameOutline_map : s.SameOutline (map s f done rest).store := by
  cases rest <;> exact ⟨rfl, rfl, rfl, rfl, rfl, rfl⟩

/-- Filtering leaves the outline of a store alone. -/
theorem Reply.sameOutline_filter : s.SameOutline (filter s f done rest).store := by
  cases rest <;> exact ⟨rfl, rfl, rfl, rfl, rfl, rfl⟩

/-- Visiting leaves the outline of a store alone. -/
theorem Reply.sameOutline_visit : s.SameOutline (visit s f rest).store := by
  cases rest <;> exact .refl s

/-- Finding leaves the outline of a store alone. -/
theorem Reply.sameOutline_find : s.SameOutline (find s f rest).store := by
  cases rest <;> exact .refl s

/-- Folding leaves the outline of a store alone. -/
theorem Reply.sameOutline_fold (acc : Value) : s.SameOutline (fold s f acc rest).store := by
  cases rest <;> exact .refl s

/-- Sorting by a function leaves the outline of a store alone. -/
theorem Reply.sameOutline_sort (query : Query Value (List Value)) :
    s.SameOutline (sort s f query).store := by
  cases query <;> exact ⟨rfl, rfl, rfl, rfl, rfl, rfl⟩

end Outlines

/-- A builtin changes no scope, closure, class or counter. -/
theorem Answers.sameOutline {s : Store} {args : List Value} {b : Builtin} {r : Reply}
    (h : Answers s args b r) : s.SameOutline r.store := by
  cases h with
  | map => exact Reply.sameOutline_map ..
  | filter => exact Reply.sameOutline_filter ..
  | forEach => exact Reply.sameOutline_visit ..
  | find => exact Reply.sameOutline_find ..
  | reduce => exact Reply.sameOutline_fold ..
  | sort => exact Reply.sameOutline_sort ..
  | _ => exact ⟨rfl, rfl, rfl, rfl, rfl, rfl⟩

/-- A waiting builtin that goes on changes no scope, closure, class or counter. -/
theorem Pending.sameOutline_resume (s : Store) (v : Value) (pending : Pending) :
    s.SameOutline (pending.resume s v).store := by
  cases pending with
  | mapping => exact Reply.sameOutline_map ..
  | filtering => exact Reply.sameOutline_filter ..
  | visiting => exact Reply.sameOutline_visit ..
  | finding =>
    rw [resume]
    split
    · exact .refl s
    · exact Reply.sameOutline_find ..
  | folding => exact Reply.sameOutline_fold ..
  | sorting =>
    rw [resume]
    split
    · exact .refl s
    · exact Reply.sameOutline_sort ..

/-- Only the builtins that write change the output. -/
theorem Answers.output {s : Store} {args : List Value} {b : Builtin} {r : Reply}
    (h : Answers s args b r) (hb : b.writes = false) : r.store.output = s.output := by
  cases h with
  | write hwrites | refuse hwrites => cases hb.symm.trans hwrites
  | @map r => cases hitems : (s.items r).toList <;> rfl
  | @filter r => cases hitems : (s.items r).toList <;> rfl
  | @forEach r => cases hitems : (s.items r).toList <;> rfl
  | @find r => cases hitems : (s.items r).toList <;> rfl
  | @reduce r => cases hitems : (s.items r).toList <;> rfl
  | @sort r => cases hquery : Sorting.sort (s.items r).toList <;> rfl
  | _ => rfl

/-- A waiting builtin that goes on prints nothing itself. -/
theorem Pending.output_resume (s : Store) (v : Value) (pending : Pending) :
    (pending.resume s v).store.output = s.output := by
  cases pending with
  | mapping f done rest => cases rest <;> rfl
  | filtering f item done rest => cases rest <;> rfl
  | visiting f rest => cases rest <;> rfl
  | finding f item rest =>
    rw [resume]
    split
    · rfl
    · cases rest <;> rfl
  | folding f rest => cases rest <;> rfl
  | sorting f next =>
    rw [resume]
    split
    · rfl
    · rename_i x _
      cases next (x < 0) <;> rfl

namespace Builtin

variable {s : Store} {args : List Value}

/-- Printing adds to the output. -/
theorem yields_output_print :
    Yields (fun act => s.output.Extends (act s).store.output) (effect .print s args) := by
  refine Yields.bind fun v _ => yields_pure ?_
  dsimp only
  split
  · exact .write _ _
  · exact .write _ _

/-- Showing help adds to the output. -/
theorem yields_output_help :
    Yields (fun act => s.output.Extends (act s).store.output) (effect .help s args) := by
  simp only [effect]
  split_ifs
  · exact Yields.bind fun _ _ => Yields.bind fun _ _ => yields_pure (.writeAll _ _)
  · exact Yields.bind fun _ _ => Yields.bind fun _ _ => yields_pure (.writeAll _ _)

/-- What a builtin prints comes behind what was printed before. -/
theorem extends_output_run (b : Builtin) (s : Store) (args : List Value) :
    s.output.Extends (b.run s args).store.output := by
  by_cases hb : b.writes = false
  · rw [(run_answers b s args).output hb]
    exact .refl _
  · obtain ⟨hpure, heffect⟩ : pureResult? b s args = none ∧
        Yields (fun act => s.output.Extends (act s).store.output) (effect b s args) := by
      cases b with
      | print => exact ⟨rfl, yields_output_print⟩
      | help => exact ⟨rfl, yields_output_help⟩
      | _ => exact absurd rfl hb
    unfold run
    split
    · exact .refl _
    · rw [hpure]
      cases hact : effect b s args with
      | error cause => exact .refl _
      | ok act =>
        rw [hact] at heffect
        exact heffect

end Builtin

namespace Machine

variable {limits : Limits} {m m' : Machine}

/-- The store after a reply is the one that the builtin leaves. -/
@[simp] theorem store_reply (r : Reply) (stack : List Frame) : (reply r stack).store = r.store := by
  cases r <;> rfl

/-- Naming a function leaves the output alone. -/
theorem output_nameClosure (s : Store) (v : Value) (name : Text) :
    (s.nameClosure v name).output = s.output := by
  cases v <;> rfl

/-- Recording an event leaves the output alone. -/
theorem output_record (s : Store) (phase : Phase) (name : Text) :
    (s.record phase name).output = s.output := by
  unfold Store.record
  split <;> rfl

/-- What a step prints comes behind what was printed before. -/
theorem Next.extends_output (h : Next limits m m') :
    m.store.output.Extends m'.store.output := by
  cases h with
  | builtin =>
    rw [store_reply]
    exact Builtin.extends_output_run ..
  | resume =>
    rw [store_reply]
    exact (Pending.output_resume ..).symm ▸ .refl _
  | tracedCall | traced | tracedFault => exact (output_record ..).symm ▸ .refl _
  | define => exact (output_nameClosure ..).symm ▸ .refl _
  | member hlearns | madeClass hlearns =>
    cases hlearns with
    | maker => exact .refl _
    | method => exact (output_nameClosure ..).symm ▸ .refl _
  | _ => exact .refl _

/-- What a run prints comes behind what was printed before. -/
theorem Reaches.extends_output (h : Reaches limits m m') :
    m.store.output.Extends m'.store.output :=
  h.invariant (I := fun m' => m.store.output.Extends m'.store.output) (.refl _)
    fun _ _ hnext ih => ih.trans hnext.extends_output

/-- The cause of a fault that is raised has a property. -/
def Blames (P : Cause → Prop) : Machine → Prop
  | raising fault _ _ => P fault.cause
  | _ => True

variable {P : Cause → Prop}

/-- A failure of a builtin is raised with the cause that it has. -/
theorem blames_reply {r : Reply} (h : r.Blames P) (stack : List Frame) :
    (reply r stack).Blames P := by
  cases r with
  | failure cause s => exact h
  | _ => trivial

/-- Giving a place to a fault leaves its cause alone. -/
theorem cause_located (op : Expr) (fault : Fault) : (located op fault).cause = fault.cause := by
  unfold located
  split <;> rfl

/-- A step raises only faults that a running program can have, unless it calls what is not there. -/
theorem Next.blames (h : Next limits m m') (hP : ∀ cause : Cause, cause.IsRegular → P cause)
    (hcall : ∀ f args stack s, m = calling f args stack s → f.Within s.extent ∨ P .outOfRange)
    (hm : m.Blames P) : m'.Blames P := by
  have hreply {r : Reply} (hr : r.Blames Cause.IsRegular) (stack : List Frame) :
      (reply r stack).Blames P := by
    apply blames_reply
    cases r with
    | failure cause s => exact hP cause hr
    | _ => trivial
  cases h with
  | @exceeded _ _ _ _ cause hcause =>
    cases cause with
    | stepBudget | nestingDepth => exact hP _ rfl
    | _ => exact hcause.elim
  | unbound => exact hP _ rfl
  | malformed hfault => exact hP _ hfault.cause
  | uncallable hcause =>
    rcases hcause with hcause | ⟨rfl, hf⟩
    · exact hP _ hcause
    · exact (hcall _ _ _ _ rfl).resolve_left hf
  | builtin => exact hreply (Builtin.blames_run ..) _
  | resume => exact hreply (Pending.blames_resume ..) _
  | rejected hrejects => cases hrejects <;> exact hP _ rfl
  | locate =>
    simp only [Blames, cause_located]
    exact hm
  | tracedFault | pass => exact hm
  | _ => trivial

end Machine

/-- The evaluation of an expression never ends in the fault of a text that is not read to its
end. -/
theorem isFinal_of_evaluate {limits : Limits} {fuel : Nat} {e : Expr} {scope : ScopeRef} {s : Store}
    {o : Outcome} (h : evaluate limits fuel e scope s = some o) {fault : Fault}
    (hfault : o.result = .error fault) : fault.cause.isIncomplete = false := by
  have hreaches := Machine.reaches_raising_of_run h hfault
  apply hreaches.invariant (I := Machine.Blames fun cause => cause.isIncomplete = false) trivial
  intro m m' hnext
  exact hnext.blames (fun _ => Cause.IsRegular.isIncomplete) fun _ _ _ _ _ => .inr rfl

/-- What was printed before a program is still there behind it. -/
theorem extends_output_of_execute {limits : Limits} {fuel : Nat} {src : Text} {scope : ScopeRef}
    {s : Store} {o : Outcome} (h : execute limits fuel src scope s = some o) :
    s.output.Extends o.store.output := by
  unfold execute at h
  split at h
  · obtain rfl := Option.some.inj h
    exact .refl _
  · obtain ⟨m, hreaches, -, hstore⟩ := Machine.exists_end_of_run h
    rw [← hstore]
    exact hreaches.extends_output

end TinyScript
