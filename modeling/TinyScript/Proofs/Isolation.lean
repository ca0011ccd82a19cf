import TinyScript.CommandLine.Program
import TinyScript.Proofs.Leftovers
import TinyScript.Proofs.MirroredRuns

/-!
# Programs do not see each other

Programs of one driver run one after the other in scopes of their own inside the top scope. What a
program without `set` leaves behind, the next one cannot reach: it does what it would do alone.
Labels of instances come from outside, one after the other, and programs can read them; so a program
is compared with itself where the labels to come are the same, whatever they are. Random numbers are
left out: neither run may ask for one.
-/

namespace TinyScript

/-- The text of the value that a program came to, or its fault. -/
def Outcome.report (o : Outcome) : Except Fault Text := o.result.map o.store.sourceText

namespace Machine

variable {r : Renaming} {limits : Limits} {m m' : Machine}

/-- Outcomes that mirror each other are reported in the same way, and the same text is printed
behind what was there before. -/
theorem Mirrors.map_run (h : m.Mirrors r m') (hw : m.WellFormed) (hl : m.Layered)
    (hm : ∀ m₁, Reaches limits m m₁ → m₁.callsRandom = false) (fuel : Nat) :
    ((Machine.run limits fuel m').map fun o => (o.report, o.store.output.text)) =
      (Machine.run limits fuel m).map fun o =>
        (o.report, Text.concat r.written.reverse ++ o.store.output.text) := by
  have hrun := h.run hw hl hm fuel
  generalize ho : Machine.run limits fuel m = outcome at hrun
  generalize Machine.run limits fuel m' = outcome' at hrun
  cases hrun with
  | none => rfl
  | some houtcome =>
    refine congrArg some ?_
    cases houtcome with
    | fault fault hstore => exact congrArg (Except.error fault, ·) hstore.output.text
    | @value s s' v hstore =>
      rcases exists_reaches_of_run ho with ⟨_, hreaches, ⟨⟩⟩ | ⟨_, _, ⟨⟩⟩
      have hend := hreaches.wellFormed hw
      have htext := hstore.sourceText hend.store (hend.values v List.mem_cons_self)
      exact congrArg₂ (Except.ok ·, ·) htext hstore.output.text

end Machine

namespace Store

/-- What a top scope binds, and to what, at first. -/
def topEntries (home : ScopeRef) : List (Text × Value) :=
  (Text.ofString "true", .boolean true) :: (Text.ofString "false", .boolean false) ::
    Catalogue.builtins.map fun b => (b.label, .builtin b home)

/-- The store of a driver before its first program: there is only a top scope. -/
def fresh (output : Output) (traced : Bool) (supply : Supply) : Store :=
  { Store.empty output traced with supply := supply }.newTopScope.2

/-- At first, nothing in the top scope refers to a place that another store has elsewhere. -/
theorem mirrors_topEntries (r : Renaming) :
    (Bindings.ofList (topEntries 0)).Mirrors r (.ofList (topEntries 0)) := by
  have hfixed : (topEntries 0).map (fun entry => (entry.1, r.value entry.2)) = topEntries 0 := by
    rw [topEntries, List.map_cons, List.map_cons, List.map_map]
    rfl
  have hmirrors := Bindings.Mirrors.ofList (r := r) (topEntries 0)
  rwa [hfixed] at hmirrors

/-- A store in which a driver can run the next program as if it was the first: its top scope binds
what a top scope binds at first, every write is taken, and no application is under way. -/
structure Ready (traced : Bool) (s : Store) : Prop where
  top : 0 < s.scopes.size
  outer : s.outer? 0 = none
  bound : ∀ name, s.bound? 0 name = (Bindings.ofList (topEntries 0)).get? name
  isOpen : s.output.Open
  events : s.events.isSome = traced
  depth : s.depth = 0

/-- The store of a new driver is ready. -/
theorem ready_fresh {output : Output} (hopen : output.Open) (traced : Bool) (supply : Supply) :
    (fresh output traced supply).Ready traced where
  top := by simp [fresh, newTopScope, newScope]
  outer := rfl
  bound _ := rfl
  isOpen := hopen
  events := by cases traced <;> rfl
  depth := rfl

/-- Everything that is in a store besides its top scope, as what stands in front of the things of
the next program. -/
def behind (s : Store) : Renaming where
  scopes := s.scopes.size - 1
  arrays := s.arrays.size
  closures := s.closures.size
  classes := s.classes.size
  instances := s.instances.size
  written := s.output.written

/-- Nothing is carried over to stand behind everything else. -/
theorem carried_empty {α : Type} (R : α → α → Prop) (xs : Array α) :
    Carried (· + xs.size) R #[] xs where
  get i := by
    rw [Array.getElem?_eq_none (Nat.le_add_left ..)]
    exact .none
  size := (Nat.zero_add _).symm

/-- The top scopes correspond, and behind them there is nothing in the fresh store. -/
theorem Ready.carried_scopes {traced : Bool} {s : Store} (h : s.Ready traced) :
    Carried s.behind.scope (Scope.Mirrors s.behind) #[⟨none, .ofList (topEntries 0)⟩]
      s.scopes where
  get i := by
    cases i with
    | zero =>
      obtain ⟨top, htop⟩ : ∃ top, s.scopes[0]? = some top := ⟨_, Array.getElem?_eq_getElem h.top⟩
      have hbound (name : Text) :
          top.bindings.get? name = (Bindings.ofList (topEntries 0)).get? name := by
        rw [← h.bound name, bound?, htop, Option.bind_some]
      rw [Renaming.scope_zero, htop]
      refine .some ⟨?_, fun name => ?_⟩
      · rw [← outer?_eq_some htop, h.outer]
        rfl
      · rw [hbound name]
        exact mirrors_topEntries s.behind name
    | succ i =>
      have hplace : s.scopes.size ≤ s.behind.scope (i + 1) := by
        rw [Renaming.scope_of_pos _ (Nat.succ_pos i)]
        simp only [behind]
        omega
      rw [Array.getElem?_eq_none hplace, Array.getElem?_eq_none (Nat.succ_le_succ (Nat.zero_le i))]
      exact .none
  size := by
    have htop := h.top
    change s.scopes.size = s.behind.scope 1
    rw [Renaming.scope_of_pos _ Nat.one_pos]
    simp only [behind]
    omega

/-- A store that is ready mirrors a fresh one with the same labels to come, whatever else is in
it. -/
theorem Ready.mirrors {traced : Bool} {s : Store} (h : s.Ready traced) {supply : Supply}
    (hlabels : supply.SameLabels s.supply) :
    (fresh (.fresh none) traced supply).Mirrors s.behind { s with steps := 0 } where
  scopes := h.carried_scopes
  top := by simp [fresh, newTopScope, newScope]
  arrays := carried_empty _ s.arrays
  closures := carried_empty _ s.closures
  classes := carried_empty _ s.classes
  instances := carried_empty _ s.instances
  labels := hlabels
  output := ⟨(List.nil_append _).symm, Output.open_fresh, h.isOpen⟩
  events := by
    have hfresh : (fresh (.fresh none) traced supply).Ready traced :=
      ready_fresh Output.open_fresh traced supply
    exact h.events.trans hfresh.events.symm
  steps := rfl
  depth := h.depth

end Store

namespace CommandLine

/-- The state in which the evaluation of a program of a driver begins. -/
def Host.begin (h : Host) (e : Expr) (s : Store) : Machine :=
  .evaluating e (s.newScope (some h.top) .empty).1 []
    { (s.newScope (some h.top) .empty).2 with steps := 0 }

/-- Running a program never comes to a call of `random`. -/
def Host.AvoidsRandom (h : Host) (source : Text) (s : Store) : Prop :=
  ∀ e, parse source = .ok e → ∀ m, Machine.Reaches h.limits (h.begin e s) m → m.callsRandom = false

variable {h : Host} {traced : Bool}

/-- A run that ends without a call of `random` avoids it. -/
theorem Host.AvoidsRandom.of_endsWithout {source : Text} {s : Store} (n : Nat)
    (hends : ((parse source).toOption.all fun e =>
      (h.begin e s).endsWithout Machine.callsRandom h.limits n) = true) :
    h.AvoidsRandom source s := by
  intro e he m hm
  rw [he] at hends
  exact hm.of_endsWithout hends

/-- A program without `set` leaves a store that is ready for the next one. -/
theorem ready_of_runSource {fuel : Nat} {source : Text} {s : Store} {o : Outcome}
    (hs : s.Ready traced) (hclosures : s.closures = #[])
    (hsource : SetFree source) (ho : runSource h fuel source s = some o) :
    o.store.Ready traced := by
  have hlt : 0 < (s.newScope (some h.top) .empty).2.scopes.size := by simp [Store.newScope]
  have hne : (0 : ScopeRef) ≠ (s.newScope (some h.top) .empty).1 := Nat.ne_of_lt hs.top
  obtain ⟨hsize, houter, hbound⟩ :=
    scopes_of_execute ho hsource (by simp [hclosures]) hlt hne
  have hdepth := sameDepth_of_execute ho
  exact {
    top := hsize
    outer := houter.trans ((Store.outer?_newScope _ _ hs.top).trans hs.outer)
    bound := fun name =>
      (hbound name).trans ((Store.bound?_newScope _ _ hs.top).trans (hs.bound name))
    isOpen := (extends_output_of_execute ho).isOpen hs.isOpen
    events := hdepth.events.trans hs.events
    depth := hdepth.depth.trans hs.depth }

/-- On a new driver, evaluation begins in a well-formed state. -/
theorem wellFormed_begin_fresh (e : Expr) (supply : Supply) :
    (h.begin e (.fresh (.fresh none) traced supply)).WellFormed := by
  have hfresh : (Store.fresh (.fresh none) traced .standard).Reachable := .newTopScope (.empty _ _)
  have hwell := (hfresh.newScope (some h.top)).wellFormed
  refine Machine.wellFormed_evaluating ?_ (List.forall_mem_nil _) e _
  exact ⟨hwell.scopes, hwell.arrays, hwell.instances, hwell.classes⟩

/-- On a new driver, evaluation begins where scopes lie inside older ones. -/
theorem layered_begin_fresh (htop : h.top = 0) (e : Expr) (supply : Supply) :
    (h.begin e (.fresh (.fresh none) traced supply)).Layered where
  store.outer r o ho := by
    match r with
    | 0 => exact nomatch ho
    | 1 =>
      obtain rfl := Option.some.inj ho
      exact htop ▸ Nat.one_pos
    | r + 2 => exact nomatch ho
  store.closures := by
    intro c hc
    exact absurd hc (Array.not_mem_empty c)
  places r hr := by
    obtain rfl := List.mem_singleton.mp hr
    exact Nat.lt_succ_self _

/-- In a store that is ready, a program does what it does in a fresh one with the same labels to
come. -/
theorem map_runSource_of_ready {source : Text} {s : Store} {supply : Supply} (htop : h.top = 0)
    (hs : s.Ready traced) (hlabels : supply.SameLabels s.supply)
    (hrandom : h.AvoidsRandom source (.fresh (.fresh none) traced supply)) (fuel : Nat) :
    ((runSource h fuel source s).map fun o => (o.report, o.store.output.text)) =
      (runSource h fuel source (.fresh (.fresh none) traced supply)).map fun o =>
        (o.report, s.output.text ++ o.store.output.text) := by
  have hmirrors := hs.mirrors hlabels
  have houter : some h.top = (some h.top).map s.behind.scope := by
    rw [htop]
    rfl
  unfold runSource execute
  cases hparse : parse source with
  | error fault =>
    have htext : s.output.text = s.output.text ++ Text.empty := (Text.append_empty _).symm
    exact congrArg (fun t => some (Except.error fault, t)) htext
  | ok e =>
    have hstart := Machine.Mirrors.evaluating e
      (Store.fresh (.fresh none) traced supply).scopes.size .nil (hmirrors.newScope houter .empty)
    rw [← hmirrors.scopes_size] at hstart
    exact hstart.map_run (wellFormed_begin_fresh e supply) (layered_begin_fresh htop e supply)
      (hrandom e hparse) fuel

/-- A driver has run a program without `set`, with success or not. Then the next program does what
it does as the first one of a driver: it comes to a value of the same text or to the same fault, and
prints the same text behind what was printed before, unless it asks for chance. Both drivers label
instances from any supply at all. Programs can read labels, so the labels that the first program has
left over are those that the new driver has in store; nothing else is shared. -/
theorem runSource_after {output : Output} (hopen : output.Open) {supply : Supply}
    (htop : h.top = (Store.empty output traced).newTopScope.1)
    {fuel₁ : Nat} {first : Text} {o : Outcome}
    (hfirst : SetFree first) (ho : runSource h fuel₁ first (.fresh output traced supply) = some o)
    {second : Text} {supply' : Supply} (hlabels : supply'.SameLabels o.store.supply)
    (hsecond : h.AvoidsRandom second (.fresh (.fresh none) traced supply')) (fuel : Nat) :
    ((runSource h fuel second o.store).map fun o₂ => (o₂.report, o₂.store.output.text)) =
      (runSource h fuel second (.fresh (.fresh none) traced supply')).map fun o₂ =>
        (o₂.report, o.store.output.text ++ o₂.store.output.text) := by
  have hready : o.store.Ready traced :=
    ready_of_runSource (Store.ready_fresh hopen traced supply) rfl hfirst ho
  exact map_runSource_of_ready htop hready hlabels hsecond fuel

/-- A program makes an instance and fails inside of a function that a builtin calls. The next
program makes an instance that holds itself, and prints it, as it would alone on a driver whose
first label is the second one of the other driver. -/
theorem runSource_after_failure :
    ∃ o, (runSource ⟨⟨some 1000, some 50⟩, 0, 0, none⟩ 300
        "do(class(A, fun(self, put(self, \"x\", 1))), print(A()), map(array(1), fun(x, y)))"
        (.fresh (.fresh none) true .standard) = some o ∧ o.result.isOk = false ∧
        o.store.supply.born = 1) ∧
      ∀ fuel, ((runSource ⟨⟨some 1000, some 50⟩, 0, 0, none⟩ fuel
          "do(class(B, fun(self, put(self, \"x\", array(self)))), print(B()))"
          o.store).map fun o₂ =>
          (o₂.report, o₂.store.output.text)) =
        (runSource ⟨⟨some 1000, some 50⟩, 0, 0, none⟩ fuel
          "do(class(B, fun(self, put(self, \"x\", array(self)))), print(B()))"
          (.fresh (.fresh none) true
            ⟨fun n => o.store.supply.labels (o.store.supply.born + n), 0, fun _ => 0, 0⟩)).map
          fun o₂ => (o₂.report, o.store.output.text ++ o₂.store.output.text) := by
  refine ⟨Option.get _ ?_, ⟨(Option.some_get _).symm, ?_, ?_⟩, ?_⟩
  · decide +kernel
  · decide +kernel
  · decide +kernel
  · refine runSource_after Output.open_fresh rfl ?_ (Option.some_get _).symm ?_ ?_
    · decide +kernel
    · intro n
      rw [Nat.zero_add]
    · exact .of_endsWithout 300 (by decide +kernel)

end CommandLine

end TinyScript
