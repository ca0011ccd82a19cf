import TinyScript.Proofs.Hosts
import TinyScript.Proofs.Requests
import TinyScript.Proofs.RoundTrip

/-!
# Texts of closures

A closure is written as the function form that made it. This form is part of a program, and the text
of a part of a program can be read again. So the text of a closure is read as the same form, and
evaluating it where the closure was made makes the same closure again.
-/

namespace TinyScript

/-- An expression with the tree of some text. -/
def Expr.Readable (e : Expr) : Prop := ∃ s, Grammar.Expression s e.tree

/-- Each argument behind a comma is an expression. -/
theorem Grammar.More.exists_expression {s : List UInt8} {ts : List Tree} : More s ts →
    ∀ t ∈ ts, ∃ s', Expression s' t
  | .close _ => List.forall_mem_nil _
  | .comma _ hs hrest => List.forall_mem_cons.mpr ⟨⟨_, hs⟩, hrest.exists_expression⟩

/-- Each argument is an expression. -/
theorem Grammar.Arguments.exists_expression {s : List UInt8} {ts : List Tree} : Arguments s ts →
    ∀ t ∈ ts, ∃ s', Expression s' t
  | .none _ => List.forall_mem_nil _
  | .some hs hrest => List.forall_mem_cons.mpr ⟨⟨_, hs⟩, hrest.exists_expression⟩

namespace Expr

variable {e e' : Expr}

/-- What is read of a text can be read. -/
theorem readable_of_parse {src : Text} (h : parse src = .ok e) : e.Readable := by
  obtain ⟨s, -, -, hs, -⟩ := (program_of_parse h).exists_expression
  exact ⟨s, hs⟩

/-- The parts of an expression that can be read can be read themselves. -/
theorem inherited_readable : Inherited Readable where
  operator op args h := by
    obtain ⟨s, hs⟩ := h
    cases hs with
    | atom _ hatom => cases hatom
    | call hs => exact ⟨_, hs⟩
  argument op args h arg harg := by
    obtain ⟨s, hs⟩ := h
    cases hs with
    | atom _ hatom => cases hatom
    | call _ _ hrest =>
      rw [trees_eq_map] at hrest
      exact hrest.exists_expression arg.tree (List.mem_map_of_mem harg)

/-- The text of an expression that can be read is read as its tree. -/
theorem Readable.parse_text (h : e.Readable) :
    ∃ e', parse e.toText = .ok e' ∧ e'.tree = e.tree := by
  obtain ⟨s, hs⟩ := h
  have hprogram := Grammar.Program.expression (hs.toText rfl) .nil
  rw [List.append_nil] at hprogram
  exact parse_of_program hprogram

/-- Expressions with the same tree compare equal in both directions, if the tree can be read. -/
theorem Readable.same (h : e.Readable) (htree : e'.tree = e.tree) :
    e.same e' = true ∧ e'.same e = true := by
  obtain ⟨s, hs⟩ := h
  exact ⟨hs.same rfl htree, hs.same htree rfl⟩

end Expr

namespace Machine

/-- Words are written as their names. -/
theorem map_toText_of_words {es : List Expr} {names : List Text} (h : words es = .ok names) :
    es.map Expr.toText = names := by
  fun_induction words es generalizing names with
  | case1 => exact Except.ok.inj h
  | case2 name p rest ih =>
    cases hrest : words rest with
    | error q =>
      rw [hrest] at h
      cases h
    | ok more =>
      rw [hrest] at h
      obtain rfl := Except.ok.inj h
      rw [List.map_cons, ih hrest]
      rfl
  | case3 => cases h

/-- Which names words have does not depend on their places. -/
theorem words_congr {es es' : List Expr} {names : List Text}
    (htrees : es'.map Expr.tree = es.map Expr.tree) (h : words es = .ok names) :
    words es' = .ok names := by
  fun_induction words es generalizing es' names with
  | case1 =>
    obtain rfl := List.map_eq_nil_iff.mp htrees
    exact h
  | case2 name p rest ih =>
    obtain ⟨e, rest', rfl, he, hrest'⟩ := List.map_eq_cons_iff.mp htrees
    obtain ⟨q, rfl⟩ := Expr.tree_eq_word he
    cases hrest : words rest with
    | error q =>
      rw [hrest] at h
      cases h
    | ok more =>
      rw [hrest] at h
      rw [words, ih hrest' hrest]
      exact h
  | case3 => cases h

namespace Makes

variable {m : Machine} {e : Expr} {r : ClosureRef} {c : Closure}

/-- A state that makes a closure of an expression is about to evaluate it. -/
theorem expr? (h : m.Makes e r c) : m.expr? = some e := by
  cases h with
  | function => rfl

/-- A closure that is like the one made is made as well. -/
theorem congr {c' : Closure} (h : m.Makes e r c) (halike : c.Alike c') : m.Makes e r c' := by
  cases h with
  | function hparams hbody =>
    rw [← halike.scope]
    exact .function (halike.params ▸ hparams) (halike.body ▸ hbody)

/-- The text of a function form is that of the closure which it makes. -/
theorem toText (h : m.Makes e r c) :
    e.toText = "fun(" ++ Text.join ", " (c.params ++ [c.body.toText]) ++ ")" := by
  cases h with
  | @function p args _ _ _ hparams hbody =>
    have hargs : args = args.dropLast ++ [c.body] := by
      rw [List.dropLast_append_getLast? _ hbody]
    rw [Expr.toText_apply, hargs, List.map_append, map_toText_of_words hparams]
    rfl

/-- A function form with the same tree, evaluated in the scope of the closure, makes a closure with
the same parameters and a body with the same tree. -/
theorem evaluate (h : m.Makes e r c) {e' : Expr} (htree : e'.tree = e.tree) :
    ∃ body, body.tree = c.body.tree ∧ ∀ limits fuel t, admits limits t = true → 3 ≤ fuel →
      TinyScript.evaluate limits fuel e' c.scope t = some ⟨.ok (.closure t.closures.size),
        { t with
          steps := t.steps + 1
          closures := t.closures.push ⟨Text.empty, c.params, body, c.scope⟩ }⟩ := by
  cases h with
  | @function p args _ _ _ hparams hbody =>
    obtain ⟨op, args', rfl, hop, htrees⟩ := Expr.tree_eq_apply htree
    obtain ⟨p', rfl⟩ := Expr.tree_eq_word hop
    rw [Expr.trees_eq_map] at htrees
    have hparams' : words args'.dropLast = .ok c.params := by
      refine words_congr ?_ hparams
      rw [List.map_dropLast, List.map_dropLast, htrees]
    have hlast : args'.getLast?.map Expr.tree = some c.body.tree := by
      rw [← List.getLast?_map, htrees, List.getLast?_map, hbody, Option.map_some]
    obtain ⟨body, hbody', hbodyTree⟩ := Option.map_eq_some_iff.mp hlast
    refine ⟨body, hbodyTree, ?_⟩
    intro limits fuel t hadmits hfuel
    obtain ⟨n, rfl⟩ := Nat.exists_eq_add_of_le' hfuel
    have hform : Form.ofName? Form.function.label = some .function := rfl
    have heval : eval limits (.apply (.word Form.function.label p') args') c.scope [] t =
        giving (.closure t.closures.size) [.application (.word Form.function.label p')]
          { t with
            steps := t.steps + 1
            depth := t.depth + 1
            closures := t.closures.push ⟨Text.empty, c.params, body, c.scope⟩ } := by
      rw [eval_of_admits hadmits]
      simp only [start, hform, begin, hbody', hparams', Store.newClosure]
    simp only [TinyScript.evaluate, run, step, heval, resume, Nat.add_sub_cancel]

end Makes

end Machine

/-- A closure was there before a run, up to its name, or is made by a state on the way. -/
theorem Machine.Reaches.closure_origin {limits : Limits} {m m' : Machine}
    (h : Reaches limits m m') {r : ClosureRef} {c : Closure}
    (hc : m'.store.closures[r]? = some c) :
    (∃ old, m.store.closures[r]? = some old ∧ old.Alike c) ∨
      ∃ mid e, Reaches limits m mid ∧ Reaches limits mid m' ∧ mid.Makes e r c := by
  induction h generalizing c with
  | refl => exact .inl ⟨c, hc, .refl c⟩
  | @tail mid m' hreaches hstep ih =>
    have hlast : Reaches limits mid m' := reaches_of_step hstep
    rcases (next_of_step hstep).closure_origin hc with ⟨old, hold, halike⟩ | ⟨e, hmakes⟩
    · rcases ih hold with ⟨older, holder, halike'⟩ | ⟨first, e, hfirst, hmid, hmakes⟩
      · exact .inl ⟨older, holder, halike'.trans halike⟩
      · exact .inr ⟨first, e, hfirst, hmid.trans hlast, hmakes.congr halike⟩
    · exact .inr ⟨mid, e, hreaches, hlast, hmakes⟩

namespace Store

variable {s s' s'' : Store} {m : Machine} {r : ClosureRef} {c : Closure}

/-- On the way from one store to another, a program that a host runs comes to a state. -/
inductive Passes (s : Store) (m : Machine) (s' : Store) : Prop where
  | run {t : Store} {limits : Limits} {fuel : Nat} {src : Text} {scope : ScopeRef} {e : Expr}
      {o : Outcome} (hbefore : s.Leads t) (hparse : parse src = .ok e)
      (hreaches : Machine.Reaches limits (.evaluating e scope [] { t with steps := 0 }) m)
      (ho : execute limits fuel src scope t = some o) (hafter : o.store.Leads s')

/-- A state that was come to stays one when the host goes on. -/
theorem Passes.tail (h : s.Passes m s') (hstep : HostStep s' s'') : s.Passes m s'' := by
  cases h with
  | run hbefore hparse hreaches ho hafter =>
    exact .run hbefore hparse hreaches ho (.tail hafter hstep)

/-- Whatever a host does, a closure was there before, up to its name, or is made on the way. -/
theorem Leads.closure_origin (h : s.Leads s') (hc : s'.closures[r]? = some c) :
    (∃ old, s.closures[r]? = some old ∧ old.Alike c) ∨
      ∃ m e, s.Passes m s' ∧ m.Makes e r c := by
  induction h generalizing c with
  | refl => exact .inl ⟨c, hc, .refl c⟩
  | @tail mid s' hbefore hstep ih =>
    have hkept : (∃ old, mid.closures[r]? = some old ∧ old.Alike c) →
        (∃ old, s.closures[r]? = some old ∧ old.Alike c) ∨
          ∃ m e, s.Passes m s' ∧ m.Makes e r c := by
      rintro ⟨old, hold, halike⟩
      rcases ih hold with ⟨older, holder, halike'⟩ | ⟨m, e, hpasses, hmakes⟩
      · exact .inl ⟨older, holder, halike'.trans halike⟩
      · exact .inr ⟨m, e, hpasses.tail hstep, hmakes.congr halike⟩
    cases hstep with
    | newTopScope | newScope | handOver => exact hkept ⟨c, hc, .refl c⟩
    | execute hscope ho =>
      rcases exists_reaches_of_execute ho with
        ⟨fault, -, rfl⟩ | ⟨program, last, hparse, hreaches, hstore, -⟩
      · exact hkept ⟨c, hc, .refl c⟩
      · rw [← hstore] at hc
        rcases hreaches.closure_origin hc with hold | ⟨m, e, hm, -, hmakes⟩
        · exact hkept hold
        · exact .inr ⟨m, e, .run hbefore hparse hm ho .refl, hmakes⟩

/-- A host that runs a text begins with expressions that can be read only. -/
theorem madeOf_evaluating {t : Store} (hclosures : ∀ c ∈ t.closures, c.body.Readable) {src : Text}
    {e : Expr} (hparse : parse src = .ok e) (scope : ScopeRef) :
    (Machine.evaluating e scope [] { t with steps := 0 }).MadeOf Expr.Readable Expr.Readable where
  expr e' he' := by
    obtain rfl := Option.some.inj he'
    exact Expr.readable_of_parse hparse
  stack := List.forall_mem_nil _
  closures := hclosures

/-- The bodies of all closures can be read, whatever programs a host runs. -/
theorem Leads.readable (h : s.Leads s') (hs : ∀ c ∈ s.closures, c.body.Readable) :
    ∀ c ∈ s'.closures, c.body.Readable := by
  induction h with
  | refl => exact hs
  | tail _ hstep ih =>
    cases hstep with
    | newTopScope | newScope | handOver => exact ih
    | @execute limits fuel src scope o hscope ho =>
      rcases exists_reaches_of_execute ho with
        ⟨fault, -, rfl⟩ | ⟨program, last, hparse, hreaches, hstore, -⟩
      · exact ih
      · have hmade := madeOf_evaluating ih hparse scope
        exact hstore ▸ (hreaches.madeOf Expr.inherited_readable hmade).closures

/-- Every expression that is come to on the way can be read, if the closures at the beginning
could. -/
theorem Passes.readable (h : s.Passes m s') (hs : ∀ c ∈ s.closures, c.body.Readable) {e : Expr}
    (he : m.expr? = some e) : e.Readable := by
  cases h with
  | @run t limits fuel src scope program o hbefore hparse hreaches =>
    have hmade := madeOf_evaluating (hbefore.readable hs) hparse scope
    exact (hreaches.madeOf Expr.inherited_readable hmade).expr e he

end Store

/-- A host begins with a top scope, makes scopes and runs programs, and the run of a program comes
to some state. Every closure that there is then was made by a function form, in an earlier program
or on the way to this state. The text of the closure can be read, and what is read is that form
apart from places. Evaluating it in the scope of the closure, wherever the limits admit one more
evaluation, makes a closure with the same parameters and scope, and with the same body apart from
places. -/
theorem parse_closure {output : Output} {traced : Bool} {s : Store}
    (h : (Store.empty output traced).newTopScope.2.Leads s) {limits : Limits} {src : Text}
    {scope : ScopeRef} {program : Expr} {m : Machine} (hparse : parse src = .ok program)
    (hreaches : Machine.Reaches limits (.evaluating program scope [] { s with steps := 0 }) m)
    {r : ClosureRef} {c : Closure} (hc : m.store.closures[r]? = some c) :
    ∃ mid e e',
      ((Store.empty output traced).newTopScope.2.Passes mid s ∨
        Machine.Reaches limits (.evaluating program scope [] { s with steps := 0 }) mid ∧
        Machine.Reaches limits mid m) ∧
      mid.Makes e r c ∧ parse (m.store.sourceText (.closure r)) = .ok e' ∧
      e.same e' = true ∧ e'.same e = true ∧
      ∀ limits' fuel t, Machine.admits limits' t = true → 3 ≤ fuel →
        ∃ o r' c', evaluate limits' fuel e' c.scope t = some o ∧ o.result = .ok (.closure r') ∧
          o.store.closures[r']? = some c' ∧ c'.params = c.params ∧ c'.scope = c.scope ∧
          c.body.same c'.body = true ∧ c'.body.same c.body = true := by
  have hnone : ∀ c ∈ (Store.empty output traced).newTopScope.2.closures, c.body.Readable := by
    simp [Store.empty, Store.newTopScope, Store.newScope]
  have hmade := Store.madeOf_evaluating (h.readable hnone) hparse scope
  have horigin : ∃ mid e, ((Store.empty output traced).newTopScope.2.Passes mid s ∨
      Machine.Reaches limits (.evaluating program scope [] { s with steps := 0 }) mid ∧
      Machine.Reaches limits mid m) ∧ mid.Makes e r c ∧ e.Readable := by
    rcases hreaches.closure_origin hc with ⟨old, hold, halike⟩ | ⟨mid, e, hmid, hrest, hmakes⟩
    · rcases h.closure_origin hold with ⟨older, holder, -⟩ | ⟨mid, e, hpasses, hmakes⟩
      · simp [Store.empty, Store.newTopScope, Store.newScope] at holder
      · exact ⟨mid, e, .inl hpasses, hmakes.congr halike, hpasses.readable hnone hmakes.expr?⟩
    · exact ⟨mid, e, .inr ⟨hmid, hrest⟩, hmakes,
        (hmid.madeOf Expr.inherited_readable hmade).expr e hmakes.expr?⟩
  obtain ⟨mid, e, hmid, hmakes, hreadable⟩ := horigin
  obtain ⟨e', hparse', htree⟩ := hreadable.parse_text
  have htext : m.store.sourceText (.closure r) = e.toText := by
    rw [hmakes.toText]
    simp only [Store.sourceText, Store.holder?, Store.plainText, Store.closureText, hc]
  obtain ⟨body, hbody, hevaluate⟩ := hmakes.evaluate htree
  have hsame := hreadable.same htree
  refine ⟨mid, e, e', hmid, hmakes, htext ▸ hparse', hsame.1, hsame.2, ?_⟩
  intro limits' fuel t hadmits hfuel
  have hbodySame : c.body.same body = true ∧ body.same c.body = true := by
    have hbodyReadable := (hreaches.madeOf Expr.inherited_readable hmade).closures c
      (Array.mem_of_getElem? hc)
    exact hbodyReadable.same hbody
  refine ⟨_, _, _, hevaluate limits' fuel t hadmits hfuel, rfl, Array.getElem?_push_size, rfl, rfl,
    hbodySame.1, hbodySame.2⟩

/-- A function of an earlier program makes a function in its own scope. -/
theorem parse_closure_curried :
    ∃ (s : Store) (o : Outcome) (c : Closure) (e e' : Expr),
      (Store.empty (.fresh none) false).newTopScope.2.Leads s ∧
      execute ⟨none, none⟩ 100 "f(2)" 0 s = some o ∧ o.store.closures[1]? = some c ∧ c.scope = 1 ∧
      o.store.sourceText (.closure 1) = "fun(y, +(x, 1.5))" ∧
      parse (o.store.sourceText (.closure 1)) = .ok e' ∧ e.same e' = true ∧
      ∃ o' r' c', evaluate ⟨none, none⟩ 3 e' 1 o.store = some o' ∧
        o'.result = .ok (.closure r') ∧ o'.store.closures[r']? = some c' ∧
        c'.params = c.params ∧ c'.scope = 1 ∧ c.body.same c'.body = true := by
  obtain ⟨o₁, ho₁, hcheck⟩ := (Option.any_eq_true ..).mp (by decide +kernel :
    ((execute ⟨none, none⟩ 100 "define(f, fun( x , fun(y, # curried\n +(x, 1.50))))" 0
      (Store.empty (.fresh none) false).newTopScope.2).any fun o₁ =>
        (execute ⟨none, none⟩ 100 "f(2)" 0 o₁.store).any fun o =>
          o.result.isOk && o.store.closures[1]?.any (fun c => c.scope == 1) &&
            o.store.sourceText (.closure 1) == Text.ofString "fun(y, +(x, 1.5))") = true)
  obtain ⟨o, ho, hcheck⟩ := (Option.any_eq_true ..).mp hcheck
  simp only [Bool.and_eq_true, beq_iff_eq] at hcheck
  obtain ⟨⟨hok, hclosure⟩, htext⟩ := hcheck
  obtain ⟨c, hc, hscope⟩ := (Option.any_eq_true ..).mp hclosure
  have hleads : (Store.empty (.fresh none) false).newTopScope.2.Leads o₁.store :=
    .single (.execute (by decide) ho₁)
  obtain ⟨fault, -, rfl⟩ | ⟨program, m, hparse, hreaches, hstore, -⟩ := exists_reaches_of_execute ho
  · cases hok
  rw [← hstore] at hc
  obtain ⟨mid, e, e', -, -, hread, hsame, -, hevaluate⟩ := parse_closure hleads hparse hreaches hc
  obtain ⟨o', r', c', ho', hresult, hc', hparams, hscope', hbody, -⟩ :=
    hevaluate ⟨none, none⟩ 3 o.store rfl (Nat.le_refl 3)
  rw [hstore] at hc hread
  have hscope : c.scope = 1 := by simpa using hscope
  rw [hscope] at ho' hscope'
  exact ⟨o₁.store, o, c, e, e', hleads, ho, hc, hscope, htext, hread, hsame, o', r', c', ho',
    hresult, hc', hparams, hscope', hbody⟩

end TinyScript
