import TinyScript.CommandLine.Run
import TinyScript.Proofs.LargerLimits
import TinyScript.Proofs.Views

/-!
# Stopping at the first failure

The programs of a command line run in order up to the first that fails. None of them sees what was
printed before it, so what they print, each when it runs by itself, comes one behind the other. A
failure makes the status one and does not keep a session from following: there is one if it is asked
for, or if there are no programs, and it keeps the status.
-/

namespace TinyScript.CommandLine

/-- A state in which something was printed before. -/
def State.continuing (s : State) (before : Output) : State :=
  { s with store := s.store.continuing before }

/-- A state in which nothing was printed. -/
def State.quiet (s : State) : State :=
  { s with store := { s.store with output := s.store.output.clear } }

section Continuing

variable (h : Host) {fuel : Nat} (before : Output) (s : State)

/-- Going on with a trace does not depend on what was printed before. -/
theorem Host.continueTrace_continuing (trace : Trace) :
    h.continueTrace (s.continuing before) trace = (h.continueTrace s trace).continuing before := by
  unfold continueTrace
  split
  · rfl
  · split
    · exact congrArg (fun o => State.mk { s.store with output := o } s.messages s.files trace)
        (s.store.output.write_continuing before _)
    · rfl

/-- Writing the trace of a state does not depend on what was printed before. -/
theorem Host.traced_continuing :
    h.traced (s.continuing before) = (h.traced s).continuing before := by
  have hevents : (s.continuing before).store.events = s.store.events := rfl
  simp only [traced, hevents]
  split
  · rfl
  · exact h.continueTrace_continuing before { s with store := { s.store with events := some [] } } _

/-- Running a text does not depend on what was printed before. -/
theorem runSource_continuing (source : Text) (store : Store) :
    runSource h fuel source (store.continuing before) =
      (runSource h fuel source store).map (·.continuing before) :=
  execute_continuing before source _ (store.newScope (some h.top) .empty).2

/-- A program does not see what was printed before it. -/
theorem runProgram_continuing (p : Program) :
    runProgram h fuel p (s.continuing before) =
      (runProgram h fuel p s).map fun r => (r.1, r.2.continuing before) := by
  have hfiles : (s.continuing before).files = s.files := rfl
  have hstore : (s.continuing before).store = s.store.continuing before := rfl
  simp only [runProgram, hfiles, hstore, runSource_continuing]
  cases p.source h.sourceLimit s.files with
  | error why => rfl
  | ok content =>
    simp only [Option.map_map]
    apply congrArg (Option.map · _)
    funext o
    obtain ⟨result, store⟩ := o
    cases result with
    | error fault =>
      exact congrArg (Prod.mk false) (h.traced_continuing before ⟨store, _, _, _⟩)
    | ok v =>
      have htext : (store.continuing before).sourceText v = store.sourceText v :=
        (View.continuing before).sourceText_store store v
      simp only [Function.comp_apply, Outcome.continuing, htext]
      exact congrArg (Prod.mk true) (h.traced_continuing before ⟨store, _, _, _⟩)

end Continuing

/-- Whether a program that is tried in a state succeeds, and the state it leaves. It fails if there
is no text to run, or if the text, run in a new scope inside the top scope, comes to a fault. -/
inductive Tried (h : Host) (p : Program) (s : State) : Bool → State → Prop where
  | unread {why : Text} (hsource : p.source h.sourceLimit s.files = .error why) :
      Tried h p s false { s with messages := ⟨.error, why, []⟩ :: p.announcement :: s.messages }
  | fault {source : Text} {files : FileTree} {fuel : Nat} {fault : Fault} {store : Store}
      (hsource : p.source h.sourceLimit s.files = .ok (source, files))
      (hrun : execute h.limits fuel source s.store.scopes.size
        { s.store with scopes := s.store.scopes.push ⟨some h.top, .empty⟩ } =
          some ⟨.error fault, store⟩) :
      Tried h p s false
        (h.traced ⟨store, ⟨.error, p.name ++ ": " ++ fault.report, []⟩ :: p.announcement ::
          s.messages, files, s.trace⟩)
  | value {source : Text} {files : FileTree} {fuel : Nat} {v : Value} {store : Store}
      (hsource : p.source h.sourceLimit s.files = .ok (source, files))
      (hrun : execute h.limits fuel source s.store.scopes.size
        { s.store with scopes := s.store.scopes.push ⟨some h.top, .empty⟩ } =
          some ⟨.ok v, store⟩) :
      Tried h p s true
        (h.traced ⟨store, finished p.name (store.sourceText v) :: p.announcement :: s.messages,
          files, s.trace⟩)

section Trying

variable {h : Host} {fuel fuel' : Nat} {p : Program} {s t : State} {succeeded : Bool}

/-- What is tried is what a run with enough fuel does. -/
theorem tried_iff :
    Tried h p s succeeded t ↔ ∃ fuel, runProgram h fuel p s = some (succeeded, t) := by
  constructor
  · intro htried
    cases htried with
    | unread hsource => exact ⟨0, by simp only [runProgram, hsource]⟩
    | @fault source files fuel fault store hsource hrun =>
      have hrun : runSource h fuel source s.store = some ⟨.error fault, store⟩ := hrun
      exact ⟨fuel, by simp only [runProgram, hsource, hrun, Option.map_some]⟩
    | @value source files fuel v store hsource hrun =>
      have hrun : runSource h fuel source s.store = some ⟨.ok v, store⟩ := hrun
      exact ⟨fuel, by simp only [runProgram, hsource, hrun, Option.map_some]⟩
  · rintro ⟨fuel, hprogram⟩
    simp only [runProgram] at hprogram
    cases hsource : p.source h.sourceLimit s.files with
    | error why =>
      rw [hsource] at hprogram
      cases hprogram
      exact .unread hsource
    | ok content =>
      rw [hsource] at hprogram
      obtain ⟨⟨result, store⟩, hrun, hend⟩ := Option.map_eq_some_iff.mp hprogram
      cases result with
      | error fault =>
        cases hend
        exact .fault hsource hrun
      | ok v =>
        cases hend
        exact .value hsource hrun

/-- What a program does in a state is what it does where nothing was printed, behind what was
printed in that state. -/
theorem exists_runProgram_iff :
    (∃ fuel, runProgram h fuel p s = some (succeeded, t)) ↔
      ∃ left, Tried h p s.quiet succeeded left ∧ t = left.continuing s.store.output := by
  have hquiet (fuel : Nat) : runProgram h fuel p s =
      (runProgram h fuel p s.quiet).map fun r => (r.1, r.2.continuing s.store.output) :=
    runProgram_continuing h s.store.output s.quiet p
  constructor
  · rintro ⟨fuel, hrun⟩
    rw [hquiet] at hrun
    obtain ⟨⟨_, left⟩, hleft, hend⟩ := Option.map_eq_some_iff.mp hrun
    cases hend
    exact ⟨left, tried_iff.mpr ⟨fuel, hleft⟩, rfl⟩
  · rintro ⟨left, hleft, rfl⟩
    obtain ⟨fuel, hrun⟩ := tried_iff.mp hleft
    exact ⟨fuel, by rw [hquiet, hrun, Option.map_some]⟩

/-- More fuel does not change what a program comes to. -/
theorem runProgram_of_le {r : Bool × State} (hrun : runProgram h fuel p s = some r)
    (hle : fuel ≤ fuel') : runProgram h fuel' p s = some r := by
  simp only [runProgram] at hrun ⊢
  cases hsource : p.source h.sourceLimit s.files with
  | error why =>
    rw [hsource] at hrun
    exact hrun
  | ok content =>
    rw [hsource] at hrun
    obtain ⟨o, ho, rfl⟩ := Option.map_eq_some_iff.mp hrun
    exact Option.map_eq_some_iff.mpr ⟨o, execute_of_le ho hle, rfl⟩

/-- A limit is exceeded exactly if there is one and the size is above it. -/
theorem exceeds_iff {limit size : Nat} :
    exceeds limit size = true ↔ 0 < limit ∧ limit < size := by
  simp [exceeds, Nat.pos_iff_ne_zero]

/-- The text of a command is its own, and the text of a file is what is read from it, if it is not
too large. -/
theorem source_eq_ok_iff (limit : Nat) (p : Program) (files : FileTree) (source : Text)
    (files' : FileTree) :
    p.source limit files = .ok (source, files') ↔
      (∃ number, p = .command number source ∧ files' = files) ∨
        ∃ path, p = .file path ∧ files.read path = .ok (source, files') ∧
          ∀ route content, files.find path = .file route content →
            limit = 0 ∨ content.size ≤ limit := by
  cases p with
  | command number source' =>
    simp [Program.source, eq_comm]
  | file path =>
    simp only [Program.source, Program.file.injEq, exists_eq_left', readProgram, FileTree.read]
    cases files.find path with
    | file route content =>
      by_cases hlarge : exceeds limit content.size = true
      · have hbounds := exceeds_iff.mp hlarge
        simp [hlarge]
        omega
      · have hbounds := mt exceeds_iff.mpr hlarge
        simp [hlarge, Except.mapError]
        omega
    | folder route =>
      by_cases hlarge : exceeds limit folderSize = true <;> simp [hlarge, Except.mapError]
    | stream route content => simp [Except.mapError]
    | free route slash => simp
    | slashAfterFile => simp
    | nowhere fault => cases fault <;> simp

/-- There is no text of a file that cannot be read or that is too large, and of nothing else. -/
theorem exists_source_eq_error_iff (limit : Nat) (p : Program) (files : FileTree) :
    (∃ why, p.source limit files = .error why) ↔
      ∃ path, p = .file path ∧ ((∃ fault, files.read path = .error fault) ∨
        ∃ route content, files.find path = .file route content ∧ 0 < limit ∧
          limit < content.size) := by
  cases p with
  | command number source => simp [Program.source]
  | file path =>
    simp only [Program.source, Program.file.injEq, exists_eq_left', readProgram, FileTree.read]
    cases files.find path with
    | file route content =>
      by_cases hlarge : exceeds limit content.size = true
      · simp [hlarge, exceeds_iff.mp hlarge]
      · have hsmall := mt exceeds_iff.mpr hlarge
        simp [hlarge, Except.mapError]
        omega
    | folder route =>
      by_cases hlarge : exceeds limit folderSize = true <;> simp [hlarge, Except.mapError]
    | stream route content => simp [Except.mapError]
    | free route slash => simp
    | slashAfterFile => simp
    | nowhere fault => cases fault <;> simp

end Trying

/-- A run of a program: the state it starts in, whether it succeeds, and the state that it leaves if
nothing was printed before it. -/
structure Run where
  program : Program
  before : State
  succeeded : Bool
  left : State

namespace Run

/-- The program does that if it runs by itself. -/
def Happens (h : Host) (r : Run) : Prop := Tried h r.program r.before.quiet r.succeeded r.left

/-- What is printed in a run. If the trace goes where programs print, the recorded calls are part of
it. -/
def printed (r : Run) : Text := r.left.store.output.text

/-- The state after a run, where all that was printed before is kept. -/
def after (r : Run) : State := r.left.continuing r.before.store.output

end Run

/-- The status after some runs. -/
def exitStatus (runs : List Run) : Nat := if runs.all Run.succeeded then 0 else 1

/-- Programs run in order, each at most once, and each from the state that the one before it leaves.
None runs after one that has failed, and only a failure keeps one from running. -/
structure Course (h : Host) (programs : List Program) (s : State) (runs : List Run) (s' : State) :
    Prop where
  order : runs.map Run.program <+: programs
  happens : ∀ r ∈ runs, r.Happens h
  states : runs.map Run.before ++ [s'] = s :: runs.map Run.after
  stops : ∀ r ∈ runs.dropLast, r.succeeded = true
  complete : (∀ r ∈ runs, r.succeeded = true) → runs.map Run.program = programs

namespace Course

variable {h : Host} {p : Program} {programs : List Program} {s s' : State} {r : Run}
  {runs : List Run}

/-- Without programs nothing runs. -/
theorem nil_iff : Course h [] s runs s' ↔ runs = [] ∧ s' = s := by
  constructor
  · intro hcourse
    obtain rfl := List.map_eq_nil_iff.mp (List.prefix_nil.mp hcourse.order)
    exact ⟨rfl, (List.cons.inj hcourse.states).1⟩
  · rintro ⟨rfl, rfl⟩
    exact ⟨List.nil_prefix, by simp, rfl, by simp, fun _ => rfl⟩

/-- The first program always runs. -/
theorem not_nil_cons : ¬ Course h (p :: programs) s [] s' := by
  intro hcourse
  cases hcourse.complete (by simp)

/-- After the first run there are more if it succeeds. -/
theorem cons_iff : Course h (p :: programs) s (r :: runs) s' ↔
    r.program = p ∧ r.before = s ∧ r.Happens h ∧
      (r.succeeded = false ∧ runs = [] ∧ s' = r.after ∨
        r.succeeded = true ∧ Course h programs r.after runs s') := by
  constructor
  · intro hcourse
    obtain ⟨hprogram, horder⟩ := List.cons_prefix_cons.mp hcourse.order
    obtain ⟨hbefore, hstates⟩ := List.cons.inj hcourse.states
    refine ⟨hprogram, hbefore, hcourse.happens r List.mem_cons_self, ?_⟩
    cases hsucceeded : r.succeeded with
    | false =>
      cases runs with
      | nil => exact .inl ⟨rfl, rfl, (List.cons.inj hstates).1⟩
      | cons r' runs =>
        cases hsucceeded.symm.trans (hcourse.stops r List.mem_cons_self)
    | true =>
      right
      refine ⟨rfl, horder, ?_, hstates, ?_, ?_⟩
      · exact fun r' hr' => hcourse.happens r' (List.mem_cons_of_mem _ hr')
      · intro r' hr'
        cases runs with
        | nil => cases hr'
        | cons r'' runs => exact hcourse.stops r' (List.mem_cons_of_mem _ hr')
      · intro hall
        refine (List.cons.inj (hcourse.complete ?_)).2
        exact List.forall_mem_cons.mpr ⟨hsucceeded, hall⟩
  · rintro ⟨rfl, rfl, hhappens, ⟨hsucceeded, rfl, rfl⟩ | ⟨hsucceeded, hcourse⟩⟩
    · refine ⟨?_, ?_, rfl, by simp, ?_⟩
      · exact List.cons_prefix_cons.mpr ⟨rfl, List.nil_prefix⟩
      · exact List.forall_mem_singleton.mpr hhappens
      · intro hall
        cases hsucceeded.symm.trans (hall r List.mem_cons_self)
    · refine ⟨?_, ?_, ?_, ?_, ?_⟩
      · exact List.cons_prefix_cons.mpr ⟨rfl, hcourse.order⟩
      · exact List.forall_mem_cons.mpr ⟨hhappens, hcourse.happens⟩
      · exact congrArg (List.cons r.before) hcourse.states
      · cases runs with
        | nil => simp
        | cons r' runs => exact List.forall_mem_cons.mpr ⟨hsucceeded, hcourse.stops⟩
      · intro hall
        exact congrArg (List.cons r.program) (hcourse.complete (List.forall_mem_cons.mp hall).2)

/-- What the programs print comes in their order behind what was printed before. -/
theorem text_output (hcourse : Course h programs s runs s') :
    s'.store.output.text = s.store.output.text ++ Text.concat (runs.map Run.printed) := by
  have hafter (r : Run) :
      r.after.store.output.text = r.before.store.output.text ++ r.printed :=
    Output.text_continuing ..
  induction programs generalizing s runs with
  | nil =>
    obtain ⟨rfl, rfl⟩ := nil_iff.mp hcourse
    simp
  | cons p programs ih =>
    cases runs with
    | nil => exact (not_nil_cons hcourse).elim
    | cons r runs =>
      obtain ⟨-, rfl, -, hrest⟩ := cons_iff.mp hcourse
      rcases hrest with ⟨-, rfl, rfl⟩ | ⟨-, hrest⟩
      · simp [hafter, Text.concat_cons]
      · simp [ih hrest, hafter, Text.concat_cons, Text.append_assoc]

end Course

section Programs

variable {h : Host} {fuel fuel' : Nat} {p : Program} {programs : List Program} {s s' : State}
  {succeeded : Bool}

/-- More fuel does not change what programs come to. -/
theorem runPrograms_of_le {r : Bool × State} (hrun : runPrograms h fuel programs s = some r)
    (hle : fuel ≤ fuel') : runPrograms h fuel' programs s = some r := by
  induction programs generalizing s with
  | nil => exact hrun
  | cons p programs ih =>
    simp only [runPrograms] at hrun ⊢
    cases hfirst : runProgram h fuel p s with
    | none =>
      rw [hfirst] at hrun
      cases hrun
    | some first =>
      rw [hfirst] at hrun
      rw [runProgram_of_le hfirst hle]
      obtain ⟨_ | _, t⟩ := first
      · exact hrun
      · exact ih hrun

/-- The first of some programs fails, or the others follow it. -/
theorem exists_runPrograms_cons_iff :
    (∃ fuel, runPrograms h fuel (p :: programs) s = some (succeeded, s')) ↔
      (succeeded = false ∧ ∃ fuel, runProgram h fuel p s = some (false, s')) ∨
      ∃ t, (∃ fuel, runProgram h fuel p s = some (true, t)) ∧
        ∃ fuel, runPrograms h fuel programs t = some (succeeded, s') := by
  constructor
  · rintro ⟨fuel, hrun⟩
    simp only [runPrograms] at hrun
    cases hfirst : runProgram h fuel p s with
    | none =>
      rw [hfirst] at hrun
      cases hrun
    | some first =>
      rw [hfirst] at hrun
      obtain ⟨_ | _, t⟩ := first
      · cases hrun
        exact .inl ⟨rfl, fuel, hfirst⟩
      · exact .inr ⟨t, ⟨fuel, hfirst⟩, fuel, hrun⟩
  · rintro (⟨rfl, fuel, hfirst⟩ | ⟨t, ⟨fuel, hfirst⟩, fuel', hrest⟩)
    · exact ⟨fuel, by simp only [runPrograms, hfirst]⟩
    · refine ⟨max fuel fuel', ?_⟩
      simp only [runPrograms, runProgram_of_le hfirst (Nat.le_max_left fuel fuel')]
      exact runPrograms_of_le hrest (Nat.le_max_right fuel fuel')

/-- Programs come to what some course of them comes to. -/
theorem exists_runPrograms_iff :
    (∃ fuel, runPrograms h fuel programs s = some (succeeded, s')) ↔
      ∃ runs, Course h programs s runs s' ∧ succeeded = runs.all Run.succeeded := by
  induction programs generalizing s with
  | nil =>
    simp only [runPrograms, Course.nil_iff]
    constructor
    · rintro ⟨_, hrun⟩
      cases hrun
      exact ⟨[], ⟨rfl, rfl⟩, rfl⟩
    · rintro ⟨_, ⟨rfl, rfl⟩, rfl⟩
      exact ⟨0, rfl⟩
  | cons p programs ih =>
    rw [exists_runPrograms_cons_iff]
    simp only [exists_runProgram_iff, ih]
    constructor
    · rintro (⟨rfl, left, hleft, rfl⟩ | ⟨_, ⟨left, hleft, rfl⟩, runs, hcourse, rfl⟩)
      · exact ⟨[⟨p, s, false, left⟩],
          Course.cons_iff.mpr ⟨rfl, rfl, hleft, .inl ⟨rfl, rfl, rfl⟩⟩, rfl⟩
      · exact ⟨⟨p, s, true, left⟩ :: runs,
          Course.cons_iff.mpr ⟨rfl, rfl, hleft, .inr ⟨rfl, hcourse⟩⟩, rfl⟩
    · rintro ⟨runs, hcourse, rfl⟩
      cases runs with
      | nil => exact (Course.not_nil_cons hcourse).elim
      | cons r runs =>
        obtain ⟨rfl, rfl, hhappens, hrest⟩ := Course.cons_iff.mp hcourse
        rw [Run.Happens] at hhappens
        rcases hrest with ⟨hfailed, rfl, rfl⟩ | ⟨hsucceeded, hrest⟩
        · rw [hfailed] at hhappens
          exact .inl ⟨by simp [hfailed], r.left, hhappens, rfl⟩
        · rw [hsucceeded] at hhappens
          exact .inr ⟨r.after, ⟨r.left, hhappens, rfl⟩, runs, hrest, by simp [hsucceeded]⟩

/-- Commands are numbered in their order. -/
theorem numbered_eq_mapIdx (n : Nat) (commands : List Text) :
    numbered n commands = commands.mapIdx fun i source => .command (n + i) source := by
  induction commands generalizing n with
  | nil => rfl
  | cons source commands ih =>
    rw [numbered, ih, List.mapIdx_cons]
    simp only [Nat.add_zero, Nat.add_assoc, Nat.add_comm 1]

end Programs

section Sessions

variable {fuel : Nat} {l l' : Live} {stay : Bool}

/-- Keeping a line in the history leaves the status alone. -/
theorem Live.status_keep (l : Live) (line : Text) : (l.keep line).status = l.status := by
  unfold keep
  split <;> rfl

/-- A line that is entered leaves the status alone. -/
theorem Live.status_feed {line : Text} (h : l.feed fuel line = some (stay, l')) :
    l'.status = l.status := by
  obtain ⟨r, -, hr⟩ := Option.map_eq_some_iff.mp h
  cases hr
  exact l.status_keep line

/-- A key that is pressed leaves the status alone. -/
theorem Live.status_press {k : Key} (h : l.press fuel k = some (stay, l')) :
    l'.status = l.status := by
  simp only [press] at h
  split at h
  · cases h
    rfl
  · cases h
    rfl
  · exact (status_feed h :)
  · split at h <;> cases h <;> rfl
  · cases h
    rfl

/-- Nothing that is typed changes the status of a session. -/
theorem Live.status_pressAll {keys : List Key} (h : l.pressAll fuel keys = some (stay, l')) :
    l'.status = l.status := by
  induction keys generalizing l with
  | nil =>
    cases h
    rfl
  | cons k keys ih =>
    simp only [pressAll] at h
    cases hpress : l.press fuel k with
    | none =>
      rw [hpress] at h
      cases h
    | some next =>
      rw [hpress] at h
      obtain ⟨_ | _, l₁⟩ := next
      · cases h
        exact status_press hpress
      · exact (ih h).trans (status_press hpress)

end Sessions

/-- A trace that goes elsewhere prints nothing where programs print. -/
theorem Host.output_continueTrace {h : Host} (hh : h.trace ≠ some FileTree.outputRoute) (s : State)
    (trace : Trace) : (h.continueTrace s trace).store.output = s.store.output := by
  unfold continueTrace
  split
  · rfl
  · rename_i route hroute
    rw [if_neg (by simpa [hroute] using hh)]

/-- The trace of a state that goes elsewhere prints nothing where programs print. -/
theorem Host.output_traced {h : Host} (hh : h.trace ≠ some FileTree.outputRoute) (s : State) :
    (h.traced s).store.output = s.store.output := by
  unfold traced
  split
  · rfl
  · exact h.output_continueTrace hh _ _

/-- The output of a run that is finished is what programs have printed, if the trace goes somewhere
else. -/
theorem Job.output_conclude {j : Job} (hj : j.host.trace ≠ some FileTree.outputRoute) (status : Nat)
    (s : State) : (j.conclude status s).output = s.store.output.text := by
  simp only [conclude, j.host.output_continueTrace hj, j.host.output_traced hj]

/-- There is a session if it is asked for or if there are no programs. -/
theorem Options.hasSession_iff (o : Options) :
    o.hasSession = true ↔ o.repl = true ∨ o.files = [] ∧ o.commands = [] := by
  simp [hasSession]

/-- The programs of a command line are its files, and behind them its commands, numbered from
one. -/
theorem Options.programs_eq (o : Options) :
    o.programs =
      o.files.map .file ++ o.commands.mapIdx fun i source => .command (i + 1) source := by
  simp only [programs, numbered_eq_mapIdx, Nat.add_comm 1]

/-- The status is one exactly if a run fails. -/
theorem exitStatus_eq_one_iff {runs : List Run} :
    exitStatus runs = 1 ↔ ∃ r ∈ runs, r.succeeded = false := by
  simp [exitStatus]

/-- The status is zero exactly if all runs succeed. -/
theorem exitStatus_eq_zero_iff {runs : List Run} :
    exitStatus runs = 0 ↔ ∀ r ∈ runs, r.succeeded = true := by
  simp [exitStatus]

/-- What follows the programs of a command line that watches no files: nothing, or, if it is asked
for or if there are no programs, a session, behind a greeting. If the line editor cannot start, the
greeting is all there is of it, and the status is one. -/
inductive Follows (j : Job) (status : Nat) (s : State) : Stage → Prop where
  | nothing (h : ¬ (j.options.repl = true ∨ j.options.files = [] ∧ j.options.commands = [])) :
      Follows j status s (.finished (j.conclude status s))
  | session {l : Live}
      (h : j.options.repl = true ∨ j.options.files = [] ∧ j.options.commands = [])
      (hl : Live.start j status s.greeted = .ok l) : Follows j status s (.session l)
  | noEditor {why : Text}
      (h : j.options.repl = true ∨ j.options.files = [] ∧ j.options.commands = [])
      (hwhy : j.surroundings.editorFault = some why) :
      Follows j status s
        (.finished (j.conclude 1 (s.greeted.failing ("cannot start line editor: " ++ why))))

/-- A session starts if the line editor does, and has the status that it is given. -/
theorem Live.start_eq_ok_iff {j : Job} {status : Nat} {s : State} :
    (∃ l, Live.start j status s = .ok l) ↔ j.surroundings.editorFault = none := by
  unfold start
  cases j.surroundings.editorFault <;> simp

/-- A session that has started keeps what it was given. -/
theorem Live.eq_of_start {j : Job} {status : Nat} {s : State} {l : Live}
    (h : Live.start j status s = .ok l) : l.job = j ∧ l.status = status := by
  unfold start at h
  split at h
  · cases h
  · cases h
    exact ⟨rfl, rfl⟩

/-- Exactly one thing follows the programs. -/
theorem follows_iff {j : Job} {status : Nat} {s : State} {stage : Stage} :
    Follows j status s stage ↔
      stage = if j.options.hasSession then j.converse status s
        else .finished (j.conclude status s) := by
  have hasked := j.options.hasSession_iff
  constructor
  · intro hfollows
    cases hfollows with
    | nothing h => rw [if_neg (mt hasked.mp h)]
    | session h hl => rw [if_pos (hasked.mpr h), Job.converse, hl]
    | noEditor h hwhy =>
      rw [if_pos (hasked.mpr h), Job.converse]
      simp only [Live.start, hwhy]
  · rintro rfl
    by_cases h : j.options.hasSession = true
    · rw [if_pos h, Job.converse]
      cases hwhy : j.surroundings.editorFault with
      | some why =>
        simp only [Live.start, hwhy]
        exact .noEditor (hasked.mp h) hwhy
      | none =>
        obtain ⟨l, hl⟩ := Live.start_eq_ok_iff.mpr hwhy
        rw [hl]
        exact .session (hasked.mp h) hl
    · rw [if_neg h]
      exact .nothing (mt hasked.mpr h)

/-- A command line that watches no files comes to what follows a course of its programs. -/
theorem Job.exists_start_iff {j : Job} (hwatch : j.options.watch = false) {s : State}
    {stage : Stage} : (∃ fuel, j.start fuel s = some stage) ↔
      ∃ runs s', Course j.host j.options.programs s runs s' ∧
        Follows j (exitStatus runs) s' stage := by
  simp only [follows_iff]
  constructor
  · rintro ⟨fuel, hstart⟩
    obtain ⟨⟨succeeded, s'⟩, hrun, rfl⟩ := Option.map_eq_some_iff.mp hstart
    obtain ⟨runs, hcourse, rfl⟩ := exists_runPrograms_iff.mp ⟨fuel, hrun⟩
    exact ⟨runs, s', hcourse, by simp [hwatch, exitStatus]⟩
  · rintro ⟨runs, s', hcourse, rfl⟩
    obtain ⟨fuel, hrun⟩ := exists_runPrograms_iff.mpr ⟨runs, hcourse, rfl⟩
    exact ⟨fuel, Option.map_eq_some_iff.mpr ⟨_, hrun, by simp [hwatch, exitStatus]⟩⟩

/-- A session that has started ends with its status, or with status one if what is typed cannot be
read. -/
theorem Live.status_complete {j : Job} {status fuel : Nat} {s : State} {l : Live} {r : Result}
    (hl : Live.start j status s = .ok l) (hr : l.complete fuel = some r) :
    r.status = status ∨ j.surroundings.readingFault.isSome = true ∧ r.status = 1 := by
  obtain ⟨rfl, rfl⟩ := eq_of_start hl
  unfold complete at hr
  split at hr
  · obtain ⟨⟨stay, l'⟩, hkeys, rfl⟩ := Option.map_eq_some_iff.mp hr
    exact .inl (status_pressAll hkeys)
  · rename_i why hwhy
    obtain ⟨⟨stay, l'⟩, hkeys, rfl⟩ := Option.map_eq_some_iff.mp hr
    cases stay with
    | false => exact .inl (status_pressAll hkeys)
    | true => exact .inr ⟨by rw [hwhy]; rfl, rfl⟩

/-- The programs of a command line that watches no files are its files and then its commands. They
run in order, each at most once, up to and including the first that fails, each in a new scope
inside the top scope. Behind what was printed before comes what each of them prints when it runs by
itself. The status is one if a program has failed and zero otherwise, also at the end of a session,
unless the line editor cannot start or what is typed cannot be read, which give status one. A
session follows if it is asked for or if there are no programs, whatever has failed. A command is
its own text, and the text of a file is what is read from it. Besides the programs that come to a
fault, those fail whose file cannot be read or is too large. -/
theorem stops_at_first_failure (j : Job) (hwatch : j.options.watch = false) (s : State) :
    j.options.programs = j.options.files.map .file ++
      j.options.commands.mapIdx (fun i source => .command (i + 1) source) ∧
    (∀ stage, (∃ fuel, j.start fuel s = some stage) ↔
      ∃ runs s', Course j.host j.options.programs s runs s' ∧
        Follows j (exitStatus runs) s' stage) ∧
    (∀ runs s', Course j.host j.options.programs s runs s' →
      s'.store.output.text = s.store.output.text ++ Text.concat (runs.map Run.printed) ∧
      (exitStatus runs = 1 ↔ ∃ r ∈ runs, r.succeeded = false) ∧
      (exitStatus runs = 0 ↔ ∀ r ∈ runs, r.succeeded = true)) ∧
    (∀ status s', (j.conclude status s').status = status ∧
      (j.host.trace ≠ some FileTree.outputRoute →
        (j.conclude status s').output = s'.store.output.text) ∧
      ((∃ l, Live.start j status s' = .ok l) ↔ j.surroundings.editorFault = none) ∧
      ∀ l, Live.start j status s' = .ok l →
        (∀ fuel keys stay l', l.pressAll fuel keys = some (stay, l') →
          l'.finish.status = status) ∧
        ∀ fuel r, l.complete fuel = some r →
          r.status = status ∨ j.surroundings.readingFault.isSome = true ∧ r.status = 1) ∧
    ∀ (p : Program) (files : FileTree),
      (∀ source files', p.source j.host.sourceLimit files = .ok (source, files') ↔
        (∃ number, p = .command number source ∧ files' = files) ∨
          ∃ path, p = .file path ∧ files.read path = .ok (source, files') ∧
            ∀ route content, files.find path = .file route content →
              j.host.sourceLimit = 0 ∨ content.size ≤ j.host.sourceLimit) ∧
      (∀ path route content, files.find path = .file route content →
        files.read path = .ok (content, files)) ∧
      ((∃ why, p.source j.host.sourceLimit files = .error why) ↔
        ∃ path, p = .file path ∧ ((∃ fault, files.read path = .error fault) ∨
          ∃ route content, files.find path = .file route content ∧ 0 < j.host.sourceLimit ∧
            j.host.sourceLimit < content.size)) := by
  refine ⟨j.options.programs_eq, fun stage => Job.exists_start_iff hwatch, ?_, ?_, ?_⟩
  · intro runs s' hcourse
    exact ⟨hcourse.text_output, exitStatus_eq_one_iff, exitStatus_eq_zero_iff⟩
  · intro status s'
    refine ⟨rfl, fun htrace => j.output_conclude htrace status s', Live.start_eq_ok_iff, ?_⟩
    intro l hl
    refine ⟨fun fuel keys stay l' hkeys => ?_, fun fuel r => Live.status_complete hl⟩
    exact (Live.status_pressAll hkeys).trans (Live.eq_of_start hl).2
  · intro p files
    refine ⟨source_eq_ok_iff j.host.sourceLimit p files, ?_,
      exists_source_eq_error_iff j.host.sourceLimit p files⟩
    intro path route content hfind
    rw [FileTree.read, hfind]

/-- Of a file and two commands the first command fails: the file has printed, and the other command
does not run. -/
theorem stops_at_first_failure_second :
    ∃ (j : Job) (s : State) (runs : List Run) (s' : State),
      j.options.watch = false ∧
      j.options.programs = [.file "one.egg", .command 1 "nosuch", .command 2 "print(2)"] ∧
      s.files.read "one.egg" = .ok ("print(1)", s.files) ∧
      Course j.host j.options.programs s runs s' ∧
      exitStatus runs = 1 ∧ Text.concat (runs.map Run.printed) = "1\n" := by
  let fresh := (Store.empty (.fresh none) false).newTopScope
  let options : Options :=
    { (default : Options) with files := ["one.egg"], commands := ["nosuch", "print(2)"] }
  let j : Job := ⟨options, default, ⟨⟨none, none⟩, 100, fresh.1, none⟩, .standard⟩
  let s : State := ⟨fresh.2, [], FileTree.empty.put ["one.egg"] "print(1)", .create⟩
  obtain ⟨⟨succeeded, s'⟩, hrun, hcheck⟩ := (Option.any_eq_true ..).mp (by decide +kernel :
    ((runPrograms j.host 1000 j.options.programs s).any fun r =>
      !r.1 && r.2.store.output.text == ("1\n" : Text)) = true)
  simp only [Bool.and_eq_true, Bool.not_eq_true', beq_iff_eq] at hcheck
  obtain ⟨rfl, htext⟩ := hcheck
  have hstart : j.start 1000 s = some (.finished (j.conclude 1 s')) := by
    rw [Job.start, hrun]
    rfl
  obtain ⟨-, hstages, hcourses, hends, hsources⟩ := stops_at_first_failure j rfl s
  have hread : s.files.read "one.egg" = .ok ("print(1)", s.files) :=
    (hsources (.file "one.egg") s.files).2.1 _ ["one.egg"] _ (by decide +kernel)
  obtain ⟨runs, s₁, hcourse, hfollows⟩ := (hstages _).mp ⟨1000, hstart⟩
  have hresult : j.conclude 1 s' = j.conclude (exitStatus runs) s₁ := by
    generalize hstage : Stage.finished (j.conclude 1 s') = stage at hfollows
    cases hfollows with
    | nothing => exact Stage.finished.inj hstage
    | session => cases hstage
    | noEditor h => exact absurd h (by decide)
  have houtput : s'.store.output.text = s₁.store.output.text := by
    rw [← (hends 1 s').2.1 (by decide), hresult, (hends _ s₁).2.1 (by decide)]
  refine ⟨j, s, runs, s₁, rfl, rfl, hread, hcourse, (congrArg Result.status hresult).symm, ?_⟩
  have hprinted := (hcourses runs s₁ hcourse).1
  rw [← houtput, htext] at hprinted
  exact hprinted.symm

end TinyScript.CommandLine
