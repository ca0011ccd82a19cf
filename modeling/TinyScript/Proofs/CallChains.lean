import TinyScript.Proofs.EndlessSort

/-!
# Chains of calls

Builtins, classes and methods call each other without an evaluation in between, so the step budget
does not bound such chains by itself. But a chain through classes leads from a class to older ones,
a method call uses up an argument, and a builtin that calls back makes a bounded number of calls
with fewer arguments than it got, sorting apart. So if all evaluations end, then calls come back, as
long as no array is sorted endlessly by sorting.
-/

namespace TinyScript

/-- However its calls come out, a builtin makes finitely many of them, all of one kind, and any
value it comes to has a property. -/
inductive Reply.Bounded (C : Value → List Value → Prop) (P : Value → Prop) : Reply → Prop where
  | value {v : Value} (hv : P v) (s : Store) : Bounded C P (.value v s)
  | failure (cause : Cause) (s : Store) : Bounded C P (.failure cause s)
  | await {f : Value} {args : List Value} {pending : Pending} (hC : C f args) (s : Store)
      (hresume : ∀ v s', Bounded C P (pending.resume s' v)) :
      Bounded C P (.await f args pending s)

/-- Arrays. -/
def Value.IsArray : Value → Prop
  | .array _ => True
  | _ => False

namespace Reply

variable {C : Value → List Value → Prop} {f : Value}

/-- Mapping makes one call for each element, with the element alone. -/
theorem bounded_map (hC : ∀ x, C f [x]) (s : Store) (done rest : List Value) :
    (map s f done rest).Bounded C fun _ => True := by
  induction rest generalizing s done with
  | nil => exact .value trivial _
  | cons x rest ih => exact .await (hC x) s fun v s' => ih s' (v :: done)

/-- Filtering makes one call for each element, with the element alone. -/
theorem bounded_filter (hC : ∀ x, C f [x]) (s : Store) (done rest : List Value) :
    (filter s f done rest).Bounded C fun _ => True := by
  induction rest generalizing s done with
  | nil => exact .value trivial _
  | cons x rest ih => exact .await (hC x) s fun v s' => ih s' _

/-- Visiting makes one call for each element, with the element alone. -/
theorem bounded_visit (hC : ∀ x, C f [x]) (s : Store) (rest : List Value) :
    (visit s f rest).Bounded C fun _ => True := by
  induction rest generalizing s with
  | nil => exact .value trivial _
  | cons x rest ih => exact .await (hC x) s fun v s' => ih s'

/-- Finding makes at most one call for each element, with the element alone. -/
theorem bounded_find (hC : ∀ x, C f [x]) (s : Store) (rest : List Value) :
    (find s f rest).Bounded C fun _ => True := by
  induction rest generalizing s with
  | nil => exact .value trivial _
  | cons x rest ih =>
    refine .await (hC x) s fun v s' => ?_
    rw [Pending.resume]
    split
    · exact .value trivial _
    · exact ih s'

/-- Folding makes one call for each element, with the last result and the element. -/
theorem bounded_fold (hC : ∀ x y, C f [x, y]) (s : Store) (acc : Value) (rest : List Value) :
    (fold s f acc rest).Bounded C fun _ => True := by
  induction rest generalizing s acc with
  | nil => exact .value trivial _
  | cons x rest ih => exact .await (hC acc x) s fun v s' => ih s' v

/-- Sorting asks no more questions than its tree is deep, and gives an array. -/
theorem bounded_sort (hC : ∀ x y, C f [x, y]) (s : Store) (query : Query Value (List Value)) :
    (sort s f query).Bounded C Value.IsArray := by
  induction query generalizing s with
  | done items => exact .value trivial _
  | ask x y next ih =>
    refine .await (hC x y) s fun v s' => ?_
    rw [Pending.resume]
    split
    · exact .failure _ _
    · exact ih _ s'

/-- What is known of the value may be weakened. -/
theorem Bounded.mono {P Q : Value → Prop} {r : Reply} (h : r.Bounded C P) (hPQ : ∀ v, P v → Q v) :
    r.Bounded C Q := by
  induction h with
  | value hv s => exact .value (hPQ _ hv) s
  | failure cause s => exact .failure cause s
  | await hC s _ ih => exact .await hC s ih

end Reply

/-- Method calls apart, a builtin makes finitely many calls: of its second argument with one
argument each, or with two if it folds or sorts. -/
theorem Answers.bounded {C : Value → List Value → Prop} {s : Store} {args : List Value}
    {b : Builtin} {r : Reply} (h : Answers s args b r) (hb : b ≠ .call)
    (hone : ∀ r f, args = [.array r, f] → ∀ x, C f [x])
    (hfold : ∀ r f acc, args = [.array r, f, acc] → ∀ x y, C f [x, y])
    (hsort : ∀ r f, b = .sort → args = [.array r, f] → ∀ x y, C f [x, y]) :
    r.Bounded C fun _ => True := by
  cases h with
  | failure b cause => exact .failure cause s
  | refuse _ cause output => exact .failure cause _
  | value | array | random | write | push | pop | put => exact .value trivial _
  | map hargs _ => exact Reply.bounded_map (hone _ _ hargs) s _ _
  | filter hargs _ => exact Reply.bounded_filter (hone _ _ hargs) s _ _
  | forEach hargs _ => exact Reply.bounded_visit (hone _ _ hargs) s _
  | find hargs _ => exact Reply.bounded_find (hone _ _ hargs) s _
  | reduce hargs _ => exact Reply.bounded_fold (hfold _ _ _ hargs) s _ _
  | sort hargs _ =>
    exact (Reply.bounded_sort (hsort _ _ rfl hargs) s _).mono fun _ _ => trivial
  | call => exact absurd rfl hb

namespace Machine

variable {limits : Limits} {t : Nat} {P Q : Value → Prop} {m m' : Machine} {stack : List Frame}

/-- The run ends, or a value with a property is handed to the stack. -/
def Settles (limits : Limits) (P : Value → Prop) (m : Machine) (stack : List Frame) : Prop :=
  Ends limits m ∨ ∃ v s, P v ∧ Reaches limits m (giving v stack s)

/-- A state that hands over a value with the property has settled. -/
theorem settles_giving {v : Value} (hv : P v) (s : Store) :
    Settles limits P (giving v stack s) stack := .inr ⟨v, s, hv, .refl _⟩

/-- A fault ends the run, so nothing has to be handed to the stack. -/
theorem settles_raising (fault : Fault) (s : Store) :
    Settles limits P (raising fault stack s) stack := .inl (ends_raising fault stack s)

/-- What a later state settles to, the states before it settle to. -/
theorem Reaches.settles (h : Reaches limits m m') (hm' : Settles limits P m' stack) :
    Settles limits P m stack := by
  obtain hends | ⟨v, s, hv, hreaches⟩ := hm'
  · exact .inl (h.ends_iff.mpr hends)
  · exact .inr ⟨v, s, hv, h.trans hreaches⟩

/-- What is known of the value may be weakened. -/
theorem Settles.mono (h : Settles limits P m stack) (hPQ : ∀ v, P v → Q v) :
    Settles limits Q m stack := by
  obtain hends | ⟨v, s, hv, hreaches⟩ := h
  · exact .inl hends
  · exact .inr ⟨v, s, hPQ v hv, hreaches⟩

/-- A run that settles ends if it does after the value is handed over. -/
theorem Settles.ends (h : Settles limits P m stack)
    (hgiving : ∀ v s, Reaches limits m (giving v stack s) → Ends limits (giving v stack s)) :
    Ends limits m := by
  obtain hends | ⟨v, s, -, hreaches⟩ := h
  · exact hends
  · exact hreaches.ends_iff.mpr (hgiving v s hreaches)

/-- A call settles if what becomes of its value does. -/
theorem Settles.bind {frame : Frame} (h : Settles limits P m (frame :: stack))
    (hframe : ∀ v s, P v → Reaches limits m (giving v (frame :: stack) s) →
      Settles limits Q (resume v frame stack s) stack) : Settles limits Q m stack := by
  obtain hends | ⟨v, s, hv, hreaches⟩ := h
  · exact .inl hends
  · exact (hreaches.trans (reaches_resume limits v frame stack s)).settles (hframe v s hv hreaches)

/-- A well-formed state at which so many steps are counted, and from which the run does not come to
an endless sort. -/
structure Tame (limits : Limits) (t : Nat) (m : Machine) : Prop where
  wellFormed : m.WellFormed
  steps : t ≤ m.store.steps
  calm : ∀ m', Reaches limits m m' → ¬ m'.SortsEndlessly

/-- A tame state is followed by tame states only. -/
theorem Tame.reaches (hm : Tame limits t m) (h : Reaches limits m m') : Tame limits t m' where
  wellFormed := h.wellFormed hm.wellFormed
  steps := Nat.le_trans hm.steps h.steps_le
  calm m'' h' := hm.calm m'' (h.trans h')

/-- A sort by sorting in a tame state starts a chain of sorts that ends. -/
theorem Tame.exists_sortChain_eq_none {home : ScopeRef} {x y : Value} {s : Store}
    (htame : Tame limits t (calling (.builtin .sort home) [x, y] stack s)) :
    ∃ n, ∀ r inner, x = .array r → y = .builtin .sort inner → s.sortChain n r = none := by
  by_cases hsorts : ∃ r inner, x = .array r ∧ y = .builtin .sort inner
  · obtain ⟨r, inner, rfl, rfl⟩ := hsorts
    have hcalm : ¬ s.Endless r := htame.calm _ (.refl _)
    obtain ⟨n, hn⟩ := Classical.not_forall.mp hcalm
    refine ⟨n, fun r' inner' hx _ => ?_⟩
    obtain rfl := Value.array.inj hx
    simpa using hn
  · exact ⟨0, fun r inner hx hy => absurd ⟨r, inner, hx, hy⟩ hsorts⟩

/-- From here on, all evaluations of tame states end. -/
def EvaluationsEnd (limits : Limits) (t : Nat) : Prop :=
  ∀ e scope stack s, Tame limits t (evaluating e scope stack s) →
    Ends limits (evaluating e scope stack s)

/-- All tame calls of a kind come back with a value that has a property. -/
def CallsSettle (limits : Limits) (t : Nat) (C : Value → List Value → Prop) (P : Value → Prop) :
    Prop :=
  ∀ f args stack s, C f args → Tame limits t (calling f args stack s) →
    Settles limits P (calling f args stack s) stack

/-- A builtin settles if the calls that it makes do. -/
theorem settles_reply {C : Value → List Value → Prop}
    (hcalls : CallsSettle limits t C fun _ => True) {r : Reply} (hr : r.Bounded C P)
    (htame : Tame limits t (reply r stack)) : Settles limits P (reply r stack) stack := by
  induction hr with
  | value hv s => exact settles_giving hv s
  | failure cause s => exact settles_raising _ s
  | await hC s _ ih =>
    refine (hcalls _ _ _ s hC htame).bind fun v s' _ hreaches => ih v s' ?_
    exact htame.reaches (hreaches.trans (reaches_resume ..))

/-- A call settles if what becomes of it in one step does. -/
theorem settles_of_call {f : Value} {args : List Value} {s : Store}
    (h : Tame limits t (call f args stack s) → Settles limits P (call f args stack s) stack)
    (htame : Tame limits t (calling f args stack s)) :
    Settles limits P (calling f args stack s) stack :=
  (reaches_call limits f args stack s).settles (h (htame.reaches (reaches_call ..)))

/-- A closure settles, since its body is evaluated. -/
theorem settles_closure (heval : EvaluationsEnd limits t) {r : ClosureRef} {args : List Value}
    {s : Store} (htame : Tame limits t (calling (.closure r) args stack s)) :
    Settles limits P (calling (.closure r) args stack s) stack := by
  refine settles_of_call ?_ htame
  rw [call]
  split
  · exact fun _ => settles_raising _ s
  · split
    · exact fun _ => settles_raising _ s
    · exact fun htame => .inl (heval _ _ _ _ htame)

/-- Makers and methods of one class settle, when they are called for an instance of it. -/
def MembersSettle (limits : Limits) (t : Nat) (k : ClassRef) : Prop :=
  ∀ f r args stack s, f.Within { s.extent with classes := k } → s.parentOf r = k →
    Tame limits t (calling f (.object r :: args) stack s) →
      Settles limits (fun _ => True) (calling f (.object r :: args) stack s) stack

/-- A class settles if its maker does. -/
theorem settles_class {k : ClassRef} (hmembers : MembersSettle limits t k) {args : List Value}
    {s : Store} (htame : Tame limits t (calling (.classRef k) args stack s)) :
    Settles limits (fun _ => True) (calling (.classRef k) args stack s) stack := by
  have hs : s.WellFormed := htame.wellFormed.store
  refine settles_of_call ?_ htame
  rw [call]
  split
  · exact fun _ => settles_raising _ s
  · rename_i info hinfo
    intro htame
    have hmaker : info.maker.Within { (s.bear k).2.extent with classes := k } := by
      obtain ⟨harrays, hclosures, -, hinstances⟩ := s.extent_le_bear k
      exact (hs.classes k info hinfo).1.mono ⟨harrays, hclosures, Nat.le_refl k, hinstances⟩
    have hparent : (s.bear k).2.parentOf s.instances.size = k := by
      simp [Store.parentOf, Store.bear, Store.newInstance]
    refine (hmembers _ _ _ _ _ hmaker hparent htame).bind fun v s' _ _ => ?_
    exact settles_giving trivial s'

/-- A method call settles if the method does. -/
theorem settles_method {home : ScopeRef} {args : List Value} {s : Store}
    (hmethod : ∀ r name rest f, args = .object r :: .string name :: rest →
      f.Within { s.extent with classes := s.parentOf r } →
      Tame limits t (calling f (.object r :: rest) stack s) →
        Settles limits (fun _ => True) (calling f (.object r :: rest) stack s) stack)
    (htame : Tame limits t (calling (.builtin .call home) args stack s)) :
    Settles limits (fun _ => True) (calling (.builtin .call home) args stack s) stack := by
  have hs : s.WellFormed := htame.wellFormed.store
  refine settles_of_call ?_ htame
  rw [call]
  have hanswers := Builtin.run_answers .call s args
  generalize Builtin.call.run s args = r at hanswers
  intro htame
  cases hanswers with
  | failure | refuse => exact settles_raising _ _
  | value | array | write => exact settles_giving trivial _
  | call hargs hf => exact hmethod _ _ _ _ hargs (hs.method hf) htame

/-- A builtin other than the method call settles if the calls that it makes do. -/
theorem settles_builtin {C : Value → List Value → Prop}
    (hcalls : CallsSettle limits t C fun _ => True) {b : Builtin} {home : ScopeRef}
    {args : List Value} {s : Store} (hr : (b.run s args).Bounded C P)
    (htame : Tame limits t (calling (.builtin b home) args stack s)) :
    Settles limits P (calling (.builtin b home) args stack s) stack :=
  settles_of_call (settles_reply hcalls hr) htame

/-- The first question of a sort settles the whole sort if it comes to an array, since that is no
answer. -/
theorem settles_sort_first {f : Value} {s : Store} {query : Query Value (List Value)}
    (hask : ∀ x y next, query = .ask x y next →
      Tame limits t (calling f [x, y] (.builtin (.sorting f next) :: stack) s) →
      Settles limits Value.IsArray (calling f [x, y] (.builtin (.sorting f next) :: stack) s)
        (.builtin (.sorting f next) :: stack))
    (htame : Tame limits t (reply (Reply.sort s f query) stack)) :
    Settles limits Value.IsArray (reply (Reply.sort s f query) stack) stack := by
  cases query with
  | done items => exact settles_giving trivial _
  | ask x y next =>
    refine (hask x y next rfl htame).bind fun v s' hv _ => ?_
    cases v with
    | array r => exact settles_raising _ s'
    | _ => exact hv.elim

/-- Nothing is to be shown of calls of no kind. -/
theorem callsSettle_none : CallsSettle limits t (fun _ _ => False) P :=
  fun _ _ _ _ hC _ => hC.elim

/-- Makers and methods settle: one that is a class is an older class, and one that is the method
call uses up an argument. -/
theorem membersSettle (heval : EvaluationsEnd limits t) (k : ClassRef) :
    MembersSettle limits t k := by
  induction k using Nat.strongRecOn with
  | ind k ihclass =>
    intro f r args stack s hf hparent htame
    induction hn : args.length using Nat.strongRecOn generalizing f args with
    | ind n ihargs =>
      cases f with
      | closure r => exact settles_closure heval htame
      | classRef j => exact settles_class (ihclass j hf) htame
      | builtin b home =>
        by_cases hb : b = .call
        · subst hb
          refine settles_method ?_ htame
          intro r' name rest g hargs hg htame
          obtain ⟨hr, rfl⟩ := List.cons.inj hargs
          obtain rfl := Value.object.inj hr
          exact ihargs rest.length (by simp [← hn]) g rest (hparent ▸ hg) htame rfl
        · refine settles_builtin callsSettle_none ?_ htame
          refine (Builtin.run_answers b s _).bounded hb ?_ ?_ ?_ <;> simp
      | _ => exact settles_of_call (fun _ => settles_raising _ s) htame

section Layers

variable (heval : EvaluationsEnd limits t)
include heval

/-- A call settles if the calls that it makes as a builtin do. -/
theorem settles_calling {C : Value → List Value → Prop}
    (hcalls : CallsSettle limits t C fun _ => True) {f : Value} {args : List Value} {s : Store}
    (hbuiltin : ∀ b home, f = .builtin b home → b ≠ .call →
      (b.run s args).Bounded C fun _ => True)
    (htame : Tame limits t (calling f args stack s)) :
    Settles limits (fun _ => True) (calling f args stack s) stack := by
  cases f with
  | closure r => exact settles_closure heval htame
  | classRef k => exact settles_class (membersSettle heval k) htame
  | builtin b home =>
    by_cases hb : b = .call
    · subst hb
      refine settles_method ?_ htame
      exact fun r _ _ g _ hg htame => membersSettle heval _ g r _ _ _ hg rfl htame
    · exact settles_builtin hcalls (hbuiltin b home rfl hb) htame
  | _ => exact settles_of_call (fun _ => settles_raising _ s) htame

/-- Calls with one argument settle: a builtin that calls back wants more. -/
theorem callsSettle_one :
    CallsSettle limits t (fun _ args => args.length = 1) fun _ => True := by
  intro f args stack s hlength
  refine settles_calling heval callsSettle_none fun b home _ hb => ?_
  obtain ⟨x, rfl⟩ := List.length_eq_one_iff.mp hlength
  refine (Builtin.run_answers b s _).bounded hb ?_ ?_ ?_ <;> simp

/-- Calls with two arguments that do not sort settle: a builtin then calls back with one
argument. -/
theorem callsSettle_two_of_not_sort :
    CallsSettle limits t (fun f args => args.length = 2 ∧ ∀ home, f ≠ .builtin .sort home)
      fun _ => True := by
  rintro f args stack s ⟨hlength, hsort⟩
  refine settles_calling heval (callsSettle_one heval) fun b home hf hb => ?_
  refine (Builtin.run_answers b s _).bounded hb (fun _ _ _ _ => rfl) ?_ ?_
  · rintro r g acc rfl
    exact nomatch hlength
  · rintro r g rfl
    exact absurd hf (hsort home)

/-- A sort gives an array if its comparator does not sort, and otherwise if its questions do. -/
theorem settles_sort_of {x y : Value} {home : ScopeRef} {s : Store}
    (hsorts : ∀ r inner, x = .array r → y = .builtin .sort inner →
      Tame limits t (reply (Reply.sort s y (Sorting.sort (s.items r).toList)) stack) →
      Settles limits Value.IsArray
        (reply (Reply.sort s y (Sorting.sort (s.items r).toList)) stack) stack)
    (htame : Tame limits t (calling (.builtin .sort home) [x, y] stack s)) :
    Settles limits Value.IsArray (calling (.builtin .sort home) [x, y] stack s) stack := by
  refine settles_of_call ?_ htame
  rw [call]
  obtain ⟨r, hx, -, hrun⟩ | ⟨cause, hrun⟩ := Builtin.run_sort_pair s x y <;> rw [hrun]
  · by_cases hy : ∃ inner, y = .builtin .sort inner
    · obtain ⟨inner, hy⟩ := hy
      exact hsorts r inner hx hy
    · refine settles_reply (callsSettle_two_of_not_sort heval) (Reply.bounded_sort ?_ s _)
      exact fun _ _ => ⟨rfl, fun inner hinner => hy ⟨inner, hinner⟩⟩
  · exact fun _ => settles_raising _ s

/-- A sort gives an array if the chain of sorts that it starts ends. -/
theorem settles_sort_of_chain {n : Nat} {x y : Value} {home : ScopeRef} {s : Store}
    (hchain : ∀ r inner, x = .array r → y = .builtin .sort inner → s.sortChain n r = none)
    (htame : Tame limits t (calling (.builtin .sort home) [x, y] stack s)) :
    Settles limits Value.IsArray (calling (.builtin .sort home) [x, y] stack s) stack := by
  induction n generalizing x y home stack with
  | zero =>
    refine settles_sort_of heval (fun r inner hx hy => ?_) htame
    exact nomatch hchain r inner hx hy
  | succ n ih =>
    refine settles_sort_of heval (fun r inner hx hy => settles_sort_first ?_) htame
    subst hy
    intro second first next hquery
    refine ih fun r' inner' hsecond hfirst => ?_
    have hnested : s.nestedSort? r = some r' := by
      unfold Store.nestedSort?
      cases hitems : (s.items r).toList with
      | nil => simp [hitems, Sorting.sort_of_length_le_one] at hquery
      | cons a rest =>
        cases rest with
        | nil => simp [hitems, Sorting.sort_of_length_le_one] at hquery
        | cons b rest =>
          obtain ⟨next', hask⟩ := Sorting.sort_eq_ask a b rest
          rw [hitems, hask] at hquery
          obtain ⟨rfl, rfl, -⟩ := Query.ask.inj hquery
          subst hsecond hfirst
          rfl
    have hnext := hchain r inner hx rfl
    rwa [Store.sortChain, hnested] at hnext

/-- Calls with two arguments settle: a sort starts no endless chain. -/
theorem callsSettle_two :
    CallsSettle limits t (fun _ args => args.length = 2) fun _ => True := by
  intro f args stack s hlength htame
  by_cases hf : ∃ home, f = .builtin .sort home
  · obtain ⟨home, rfl⟩ := hf
    obtain ⟨x, y, rfl⟩ := List.length_eq_two.mp hlength
    obtain ⟨n, hn⟩ := htame.exists_sortChain_eq_none
    exact (settles_sort_of_chain heval hn htame).mono fun _ _ => trivial
  · exact callsSettle_two_of_not_sort heval f args stack s ⟨hlength, fun home h => hf ⟨home, h⟩⟩
      htame

/-- All calls settle: a builtin calls back with at most two arguments. -/
theorem callsSettle : CallsSettle limits t (fun _ _ => True) fun _ => True := by
  intro f args stack s _
  have hcalls : CallsSettle limits t (fun _ args => args.length = 1 ∨ args.length = 2)
      fun _ => True := by
    rintro f args stack s (hone | htwo)
    · exact callsSettle_one heval f args stack s hone
    · exact callsSettle_two heval f args stack s htwo
  refine settles_calling heval hcalls fun b home _ hb => ?_
  exact (Builtin.run_answers b s _).bounded hb (fun _ _ _ _ => .inl rfl)
    (fun _ _ _ _ _ _ => .inr rfl) fun _ _ _ _ _ _ => .inr rfl

end Layers

end Machine

end TinyScript
