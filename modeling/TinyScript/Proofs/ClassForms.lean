import Mathlib.Data.List.Induction
import TinyScript.Proofs.ScopeFrame
import TinyScript.Proofs.Subruns

/-!
# The class form

A class form looks at the shape of all its parts before it evaluates any of them. Then it evaluates
the maker and, member after member, the name and the function, and stops at the first fault. The
class is made and its name bound when all of this is done. So a form that fails has bound nothing
of its own: whatever the scopes hold then, the parts that were evaluated have put there.
-/

namespace TinyScript

variable {limits : Limits} {scope : ScopeRef} {s s' : Store} {o : Outcome}

namespace Methods

/-- Add methods one after the other. -/
def putAll (m : Methods) (entries : List (Text × Value)) : Methods :=
  entries.foldl (fun m entry => m.put entry.1 entry.2) m

/-- The last one of some methods is added last. -/
theorem putAll_append_singleton (m : Methods) (entries : List (Text × Value))
    (entry : Text × Value) :
    m.putAll (entries ++ [entry]) = (m.putAll entries).put entry.1 entry.2 := by
  simp only [putAll, List.foldl_append, List.foldl_cons, List.foldl_nil]

/-- The last function that was given under a name is the method. -/
theorem get?_putAll_empty (entries : List (Text × Value)) (name : Text) :
    (empty.putAll entries).get? name = entries.reverse.lookup name := by
  induction entries using List.reverseRecOn with
  | nil => exact Bindings.get?_empty name
  | append_singleton entries entry ih =>
    rw [putAll_append_singleton, List.reverse_append, List.reverse_singleton,
      List.singleton_append, List.lookup_cons, ← ih]
    rw [get?, put, Bindings.get?_put]
    by_cases h : name = entry.1
    · rw [if_pos h, beq_iff_eq.mpr h]
    · rw [if_neg h, beq_eq_false_iff_ne.mpr h]
      rfl

/-- The order names the methods as they came, each where it was first given. -/
theorem order_putAll_empty (entries : List (Text × Value)) :
    (empty.putAll entries).order = (entries.map Prod.fst).eraseDups := by
  induction entries using List.reverseRecOn with
  | nil => rfl
  | append_singleton entries entry ih =>
    have hgiven : ((empty.putAll entries).table.get? entry.1).isSome ↔
        entry.1 ∈ entries.map Prod.fst := by
      have hget : (empty.putAll entries).table.get? entry.1 = _ := get?_putAll_empty entries entry.1
      rw [hget, List.lookup_isSome_iff]
      simp
    rw [putAll_append_singleton, put, List.map_append, List.eraseDups_append, ← ih]
    by_cases h : entry.1 ∈ entries.map Prod.fst
    · simp [hgiven.mpr h, List.removeAll, h]
    · simp [hgiven, List.removeAll, h, List.eraseDups_cons]

end Methods

/-- The evaluation of an expression comes to an outcome. -/
def Evaluates (limits : Limits) (e : Expr) (scope : ScopeRef) (s : Store) (o : Outcome) : Prop :=
  ∃ fuel, evaluate limits fuel e scope s = some o

/-- An evaluation takes no scope away. -/
theorem Evaluates.scopes_le {e : Expr} (h : Evaluates limits e scope s o) :
    s.scopes.size ≤ o.store.scopes.size := by
  obtain ⟨fuel, hfuel⟩ := h
  exact (scopesKept_of_evaluate hfuel).size

/-- A part of a form is evaluated and its value looked at. What comes of it is what is read off the
value, or the fault of the evaluation, or one that is placed at the part. -/
inductive Reads {α : Type} (limits : Limits) (scope : ScopeRef) (accept : Value → Except Cause α)
    (e : Expr) (s : Store) : Except Fault α → Store → Prop where
  | fault {fault : Fault} {s' : Store} (heval : Evaluates limits e scope s ⟨.error fault, s'⟩) :
      Reads limits scope accept e s (.error fault) s'
  | rejected {v : Value} {cause : Cause} {s' : Store}
      (heval : Evaluates limits e scope s ⟨.ok v, s'⟩) (hv : accept v = .error cause) :
      Reads limits scope accept e s (.error (.placed cause e.pos)) s'
  | accepted {v : Value} {a : α} {s' : Store} (heval : Evaluates limits e scope s ⟨.ok v, s'⟩)
      (hv : accept v = .ok a) : Reads limits scope accept e s (.ok a) s'

/-- A frame that lets faults pass goes on with what it reads off a value. -/
theorem Machine.comesTo_reading_iff {α : Type} {accept : Value → Except Cause α} {e : Expr}
    {frame : Frame} {next : α → Store → Machine}
    (hunwind : ∀ fault s, unwind fault frame [] s = raising fault [] s)
    (haccepts : ∀ {v a} s, accept v = .ok a → resume v frame [] s = next a s)
    (hrejects : ∀ {v cause} s, accept v = .error cause →
      resume v frame [] s = failAt cause e.pos [] s) :
    ComesTo limits (evaluating e scope [frame] s) o ↔
      (∃ fault s', Reads limits scope accept e s (.error fault) s' ∧ o = ⟨.error fault, s'⟩) ∨
        ∃ a s', Reads limits scope accept e s (.ok a) s' ∧ ComesTo limits (next a s') o := by
  have hends : ∀ fault s', ComesTo limits (raising fault [] s') o ↔ o = ⟨.error fault, s'⟩ :=
    fun fault s' => comesTo_iff_of_end rfl
  have hfault : ∀ fault s', ComesTo limits (raising fault [frame] s') o ↔
      o = ⟨.error fault, s'⟩ := by
    intro fault s'
    rw [← hends, ← hunwind]
    exact comesTo_iff_of_step rfl
  have hvalue : ∀ v s', ComesTo limits (giving v [frame] s') o ↔
      ComesTo limits (resume v frame [] s') o := fun v s' => comesTo_iff_of_step rfl
  refine (comesTo_above_iff (evaluating e scope [] s) [frame]).trans ?_
  constructor
  · rintro ⟨⟨result, s'⟩, heval, ho⟩
    cases result with
    | error fault => exact .inl ⟨fault, s', .fault heval, (hfault ..).mp ho⟩
    | ok v =>
      have ho := (hvalue v s').mp ho
      cases hv : accept v with
      | error cause =>
        rw [hrejects s' hv] at ho
        exact .inl ⟨_, s', .rejected heval hv, (hends ..).mp ho⟩
      | ok a =>
        rw [haccepts s' hv] at ho
        exact .inr ⟨a, s', .accepted heval hv, ho⟩
  · rintro (⟨fault, s', hreads, rfl⟩ | ⟨a, s', hreads, ho⟩)
    · cases hreads with
      | fault heval => exact ⟨_, heval, (hfault ..).mpr rfl⟩
      | rejected heval hv =>
        refine ⟨_, heval, (hvalue ..).mpr ?_⟩
        rw [hrejects s' hv]
        exact (hends ..).mpr rfl
    · cases hreads with
      | accepted heval hv =>
        refine ⟨_, heval, (hvalue ..).mpr ?_⟩
        rwa [haccepts s' hv]

/-- A constructor can be called. -/
def acceptMaker (v : Value) : Except Cause Value :=
  if v.isCallable then .ok v else .error (.constructorNotFunction v.type)

/-- A method is named by a string. -/
def acceptMethodName (v : Value) : Except Cause Text :=
  match v with
  | .string name => .ok name
  | _ => .error (.methodNameNotString v.type)

/-- A method can be called. -/
def acceptMethod (name : Text) (v : Value) : Except Cause Value :=
  if v.isCallable then .ok v else .error (.methodNotFunction name v.type)

/-- The members of a class are evaluated in order, the name of each before its function, up to the
first fault. A function that has no name is then named after the class and the method. -/
inductive Gathers (limits : Limits) (cls : Text) (scope : ScopeRef) :
    List (Expr × Expr) → Store → Except Fault (List (Text × Value)) → Store → Prop where
  | done (s : Store) : Gathers limits cls scope [] s (.ok []) s
  | badName {name function : Expr} {rest : List (Expr × Expr)} {s s' : Store} {fault : Fault}
      (hname : Reads limits scope acceptMethodName name s (.error fault) s') :
      Gathers limits cls scope ((name, function) :: rest) s (.error fault) s'
  | badFunction {name function : Expr} {rest : List (Expr × Expr)} {s s₁ s' : Store} {n : Text}
      {fault : Fault} (hname : Reads limits scope acceptMethodName name s (.ok n) s₁)
      (hfunction : Reads limits scope (acceptMethod n) function s₁ (.error fault) s') :
      Gathers limits cls scope ((name, function) :: rest) s (.error fault) s'
  | badRest {name function : Expr} {rest : List (Expr × Expr)} {s s₁ s₂ s' : Store} {n : Text}
      {f : Value} {fault : Fault}
      (hname : Reads limits scope acceptMethodName name s (.ok n) s₁)
      (hfunction : Reads limits scope (acceptMethod n) function s₁ (.ok f) s₂)
      (hrest : Gathers limits cls scope rest (s₂.nameClosure f (cls ++ "." ++ n))
        (.error fault) s') :
      Gathers limits cls scope ((name, function) :: rest) s (.error fault) s'
  | member {name function : Expr} {rest : List (Expr × Expr)} {s s₁ s₂ s' : Store} {n : Text}
      {f : Value} {entries : List (Text × Value)}
      (hname : Reads limits scope acceptMethodName name s (.ok n) s₁)
      (hfunction : Reads limits scope (acceptMethod n) function s₁ (.ok f) s₂)
      (hrest : Gathers limits cls scope rest (s₂.nameClosure f (cls ++ "." ++ n))
        (.ok entries) s') :
      Gathers limits cls scope ((name, function) :: rest) s (.ok ((n, f) :: entries)) s'

/-- The class is made and bound in the scope. -/
def Store.bindClass (s : Store) (scope : ScopeRef) (info : ClassInfo) : Outcome :=
  ⟨.ok (s.newClass info).1, (s.newClass info).2.define scope info.name (s.newClass info).1⟩

/-- What a class form comes to whose parts have the right shape. -/
inductive ClassRuns (limits : Limits) (cls : Text) (maker : Expr) (members : List (Expr × Expr))
    (scope : ScopeRef) (s : Store) : Outcome → Prop where
  | badMaker {fault : Fault} {s' : Store}
      (hmaker : Reads limits scope acceptMaker maker s (.error fault) s') :
      ClassRuns limits cls maker members scope s ⟨.error fault, s'⟩
  | badMember {make : Value} {s₁ s' : Store} {fault : Fault}
      (hmaker : Reads limits scope acceptMaker maker s (.ok make) s₁)
      (hmembers : Gathers limits cls scope members s₁ (.error fault) s') :
      ClassRuns limits cls maker members scope s ⟨.error fault, s'⟩
  | binds {make : Value} {s₁ s' : Store} {entries : List (Text × Value)}
      (hmaker : Reads limits scope acceptMaker maker s (.ok make) s₁)
      (hmembers : Gathers limits cls scope members s₁ (.ok entries) s') :
      ClassRuns limits cls maker members scope s
        (s'.bindClass scope ⟨cls, make, Methods.empty.putAll entries⟩)

namespace Machine

section Frames

variable {make : Value} {methods : Methods} {plan : ClassPlan} {e function : Expr} {name : Text}

/-- A class form fails at its maker, or it goes on with its members. -/
theorem comesTo_classMaker_iff :
    ComesTo limits (evaluating e scope [.classMaker e.pos plan] s) o ↔
      (∃ fault s', Reads limits scope acceptMaker e s (.error fault) s' ∧
        o = ⟨.error fault, s'⟩) ∨
      ∃ v s', Reads limits scope acceptMaker e s (.ok v) s' ∧
        ComesTo limits (nextMember v .empty plan [] s') o := by
  apply comesTo_reading_iff (fun _ _ => rfl)
  all_goals
    intro v _ s hv
    simp only [acceptMaker] at hv
    simp only [resume]
    split at hv <;> cases hv
  · rw [if_pos ‹_›]
  · rw [if_neg ‹_›]

/-- A member fails at its name, or it goes on with its function. -/
theorem comesTo_methodName_iff :
    ComesTo limits (evaluating e scope [.methodName e.pos function make methods plan] s) o ↔
      (∃ fault s', Reads limits scope acceptMethodName e s (.error fault) s' ∧
        o = ⟨.error fault, s'⟩) ∨
      ∃ name s', Reads limits scope acceptMethodName e s (.ok name) s' ∧
        ComesTo limits (evaluating function plan.scope
          [.methodFunction name function.pos make methods plan] s') o := by
  apply comesTo_reading_iff (fun _ _ => rfl)
  all_goals
    intro v _ s hv
    cases v <;> cases hv <;> rfl

/-- A member fails at its function, or the method is added and the form goes on with the next
member. -/
theorem comesTo_methodFunction_iff :
    ComesTo limits (evaluating e scope [.methodFunction name e.pos make methods plan] s) o ↔
      (∃ fault s', Reads limits scope (acceptMethod name) e s (.error fault) s' ∧
        o = ⟨.error fault, s'⟩) ∨
      ∃ f s', Reads limits scope (acceptMethod name) e s (.ok f) s' ∧
        ComesTo limits (nextMember make (methods.put name f) plan []
          (s'.nameClosure f (plan.name ++ "." ++ name))) o := by
  apply comesTo_reading_iff (fun _ _ => rfl)
  all_goals
    intro v _ s hv
    simp only [acceptMethod] at hv
    simp only [resume]
    split at hv <;> cases hv
  · rw [if_pos ‹_›]
  · rw [if_neg ‹_›]

end Frames

/-- The members that are left are gathered, and then the class is made and bound. The methods found
so far grow with every member, and so does the store. -/
theorem comesTo_nextMember_iff {make : Value} {methods : Methods} {cls : Text}
    {members : List (Expr × Expr)} :
    ComesTo limits (nextMember make methods ⟨cls, members, scope⟩ [] s) o ↔
      (∃ fault s', Gathers limits cls scope members s (.error fault) s' ∧
        o = ⟨.error fault, s'⟩) ∨
      ∃ entries s', Gathers limits cls scope members s (.ok entries) s' ∧
        o = s'.bindClass scope ⟨cls, make, methods.putAll entries⟩ := by
  induction members generalizing methods s with
  | nil =>
    have hmade : ComesTo limits (nextMember make methods ⟨cls, [], scope⟩ [] s) o ↔
        o = s.bindClass scope ⟨cls, make, methods⟩ := comesTo_iff_of_end rfl
    rw [hmade]
    constructor
    · rintro rfl
      exact .inr ⟨[], s, .done s, rfl⟩
    · rintro (⟨fault, s', hgathers, -⟩ | ⟨entries, s', hgathers, rfl⟩)
      · cases hgathers
      · cases hgathers
        rfl
  | cons member members ih =>
    obtain ⟨name, function⟩ := member
    have hbegins : nextMember make methods ⟨cls, (name, function) :: members, scope⟩ [] s =
        evaluating name scope
          [.methodName name.pos function make methods ⟨cls, members, scope⟩] s := rfl
    simp only [hbegins, comesTo_methodName_iff, comesTo_methodFunction_iff, ih]
    constructor
    · rintro (⟨fault, s', hname, rfl⟩ | ⟨n, s₁, hname, ⟨fault, s', hfunction, rfl⟩ |
        ⟨f, s₂, hfunction, ⟨fault, s', hrest, rfl⟩ | ⟨entries, s', hrest, rfl⟩⟩⟩)
      · exact .inl ⟨fault, s', .badName hname, rfl⟩
      · exact .inl ⟨fault, s', .badFunction hname hfunction, rfl⟩
      · exact .inl ⟨fault, s', .badRest hname hfunction hrest, rfl⟩
      · exact .inr ⟨(n, f) :: entries, s', .member hname hfunction hrest, rfl⟩
    · rintro (⟨fault, s', hgathers, rfl⟩ | ⟨entries, s', hgathers, rfl⟩)
      · cases hgathers with
        | badName hname => exact .inl ⟨_, _, hname, rfl⟩
        | badFunction hname hfunction => exact .inr ⟨_, _, hname, .inl ⟨_, _, hfunction, rfl⟩⟩
        | badRest hname hfunction hrest =>
          exact .inr ⟨_, _, hname, .inr ⟨_, _, hfunction, .inl ⟨_, _, hrest, rfl⟩⟩⟩
      · cases hgathers with
        | member hname hfunction hrest =>
          exact .inr ⟨_, _, hname, .inr ⟨_, _, hfunction, .inr ⟨_, _, hrest, rfl⟩⟩⟩

/-- A class form whose parts have the right shape. -/
theorem comesTo_class_iff {cls : Text} {maker : Expr} {members : List (Expr × Expr)} :
    ComesTo limits (evaluating maker scope [.classMaker maker.pos ⟨cls, members, scope⟩] s) o ↔
      ClassRuns limits cls maker members scope s o := by
  simp only [comesTo_classMaker_iff, comesTo_nextMember_iff]
  constructor
  · rintro (⟨fault, s', hmaker, rfl⟩ | ⟨make, s₁, hmaker, ⟨fault, s', hmembers, rfl⟩ |
      ⟨entries, s', hmembers, rfl⟩⟩)
    · exact .badMaker hmaker
    · exact .badMember hmaker hmembers
    · exact .binds hmaker hmembers
  · intro h
    cases h with
    | badMaker hmaker => exact .inl ⟨_, _, hmaker, rfl⟩
    | badMember hmaker hmembers => exact .inr ⟨_, _, hmaker, .inl ⟨_, _, hmembers, rfl⟩⟩
    | binds hmaker hmembers => exact .inr ⟨_, _, hmaker, .inr ⟨_, _, hmembers, rfl⟩⟩

end Machine

/-- A member of a class: `method(name, function)`. -/
structure Member where
  place : Position
  name : Expr
  function : Expr

/-- A member as it stands in a program. -/
def Member.toExpr (m : Member) : Expr := .apply (.word "method" m.place) [m.name, m.function]

/-- The two expressions of a member. -/
def Member.parts (m : Member) : Expr × Expr := (m.name, m.function)

/-- The arguments of a class form that has the right shape. -/
structure ClassSyntax where
  name : Text
  place : Position
  maker : Expr
  members : List Member

namespace ClassSyntax

/-- The arguments as they stand in a program. -/
def args (c : ClassSyntax) : List Expr :=
  .word c.name c.place :: c.maker :: c.members.map Member.toExpr

/-- The expressions that a class form evaluates, in order. -/
def evaluated (c : ClassSyntax) : List Expr :=
  c.maker :: c.members.flatMap fun m => [m.name, m.function]

end ClassSyntax

namespace Machine

/-- Members in the right shape are taken apart into their expressions. -/
theorem members_map_toExpr (ms : List Member) :
    members (ms.map Member.toExpr) = .ok (ms.map Member.parts) := by
  induction ms with
  | nil => rfl
  | cons m ms ih =>
    simp only [List.map_cons, Member.toExpr, members, ih, if_true]
    rfl

/-- Expressions that can be taken apart as members are members in the right shape. -/
theorem exists_member_of_members {es : List Expr} {pairs : List (Expr × Expr)}
    (h : members es = .ok pairs) : ∃ ms : List Member, es = ms.map Member.toExpr := by
  fun_induction members es generalizing pairs with
  | case1 => exact ⟨[], rfl⟩
  | case2 p name function rest ih =>
    cases hrest : members rest with
    | error p =>
      rw [hrest] at h
      cases h
    | ok pairs' =>
      obtain ⟨ms, rfl⟩ := ih hrest
      exact ⟨⟨p, name, function⟩ :: ms, rfl⟩
  | case3 => cases h
  | case4 => cases h

/-- A class form in the right shape begins with its maker. -/
theorem begin_classSyntax (c : ClassSyntax) (stack : List Frame) :
    begin .classForm c.args scope stack s =
      evaluating c.maker scope
        (.classMaker c.maker.pos ⟨c.name, c.members.map Member.parts, scope⟩ :: stack) s := by
  simp only [begin, ClassSyntax.args, beginClass, members_map_toExpr]

/-- All other arguments are refused before anything is evaluated. -/
theorem begin_classForm_of_ne {args : List Expr} (h : ∀ c : ClassSyntax, args ≠ c.args)
    (stack : List Frame) :
    ∃ fault, fault.cause.kind = .syntaxError ∧
      begin .classForm args scope stack s = raising fault stack s := by
  rw [begin]
  unfold beginClass
  split
  · split
    · split
      next hms =>
        obtain ⟨ms, rfl⟩ := exists_member_of_members hms
        exact absurd rfl (h ⟨_, _, _, ms⟩)
      · exact ⟨_, rfl, rfl⟩
    · exact ⟨_, rfl, rfl⟩
  · exact ⟨_, rfl, rfl⟩

end Machine

/-- The scopes of the second store come from those of the first one by evaluating expressions, one
after the other, and by nothing else. -/
inductive ScopesBy (limits : Limits) (scope : ScopeRef) : List Expr → Store → Store → Prop where
  | none {s s' : Store} (hscopes : s'.scopes = s.scopes) : ScopesBy limits scope [] s s'
  | evaluation {e : Expr} {es : List Expr} {s t s' : Store} {o : Outcome}
      (hscopes : t.scopes = s.scopes) (heval : Evaluates limits e scope t o)
      (hrest : ScopesBy limits scope es o.store s') : ScopesBy limits scope (e :: es) s s'

namespace ScopesBy

variable {es : List Expr}

/-- Changes that leave the scopes alone may come in front. -/
theorem of_scopes_eq {t : Store} (hscopes : t.scopes = s.scopes)
    (h : ScopesBy limits scope es t s') : ScopesBy limits scope es s s' := by
  cases h with
  | none h => exact .none (h.trans hscopes)
  | evaluation h heval hrest => exact .evaluation (h.trans hscopes) heval hrest

/-- Reading a part of a form changes the scopes by evaluating this part only. -/
theorem cons_of_reads {α : Type} {accept : Value → Except Cause α} {e : Expr} {r : Except Fault α}
    {t : Store} (h : Reads limits scope accept e s r t) (hrest : ScopesBy limits scope es t s') :
    ScopesBy limits scope (e :: es) s s' := by
  cases h with
  | fault heval | rejected heval | accepted heval => exact .evaluation rfl heval hrest

/-- Evaluating expressions removes no scope. -/
theorem scopes_le (h : ScopesBy limits scope es s s') : s.scopes.size ≤ s'.scopes.size := by
  induction h with
  | none h => exact Nat.le_of_eq (congrArg Array.size h.symm)
  | evaluation h heval _ ih => exact h ▸ Nat.le_trans heval.scopes_le ih

end ScopesBy

/-- Gathering the members evaluates their parts in order, all of them if there is no fault. A
function that is named in between leaves the scopes as they are. -/
theorem Gathers.scopesBy {cls : Text} {members : List (Expr × Expr)}
    {r : Except Fault (List (Text × Value))} (h : Gathers limits cls scope members s r s') :
    ∃ es, es <+: members.flatMap (fun m => [m.1, m.2]) ∧ ScopesBy limits scope es s s' ∧
      (r.isOk → es = members.flatMap fun m => [m.1, m.2]) := by
  induction h with
  | done s => exact ⟨[], List.prefix_rfl, .none rfl, fun _ => rfl⟩
  | @badName name function rest s s' fault hname =>
    exact ⟨[name], ⟨_, rfl⟩, .cons_of_reads hname (.none rfl), fun hok => by cases hok⟩
  | @badFunction name function rest s s₁ s' n fault hname hfunction =>
    exact ⟨[name, function], ⟨_, rfl⟩, .cons_of_reads hname (.cons_of_reads hfunction (.none rfl)),
      fun hok => by cases hok⟩
  | badRest hname hfunction _ ih | member hname hfunction _ ih =>
    obtain ⟨es, hes, hby, hall⟩ := ih
    refine ⟨_ :: _ :: es, ?_, .cons_of_reads hname (.cons_of_reads hfunction
      (hby.of_scopes_eq (Store.scopes_nameClosure ..))), ?_⟩
    · exact (List.prefix_append_right_inj [_, _]).mpr hes
    · intro hok
      rw [hall hok]
      rfl

/-- A class has been made of some members, and its name bound in the scope and nowhere else. -/
structure BindsClass (cls : Text) (make : Value) (entries : List (Text × Value)) (scope : ScopeRef)
    (s : Store) (v : Value) (s' : Store) : Prop where
  value : v = .classRef s.classes.size
  bound : ∀ q name, s'.bound? q name = if q = scope ∧ name = cls then some v else s.bound? q name
  made : ∃ info, s'.classes = s.classes.push info ∧ info.name = cls ∧ info.maker = make ∧
    (∀ name, info.methods.get? name = entries.reverse.lookup name) ∧
    info.methods.order = (entries.map Prod.fst).eraseDups

/-- Binding a class makes it of its members and binds its name, in the scope and nowhere else. -/
theorem bindsClass_bindClass (cls : Text) (make : Value) (entries : List (Text × Value))
    (hscope : scope < s.scopes.size) {v : Value}
    (h : s.bindClass scope ⟨cls, make, Methods.empty.putAll entries⟩ = ⟨.ok v, s'⟩) :
    BindsClass cls make entries scope s v s' := by
  simp only [Store.bindClass, Outcome.mk.injEq, Except.ok.injEq] at h
  obtain ⟨rfl, rfl⟩ := h
  refine ⟨rfl, ?_, _, rfl, rfl, rfl, Methods.get?_putAll_empty entries,
    Methods.order_putAll_empty entries⟩
  intro q name
  by_cases hq : q = scope
  · subst hq
    rw [Store.bound?_define_self]
    simp [Store.newClass, hscope, Store.bound?]
  · rw [Store.bound?_define_of_ne _ hq]
    simp [hq, Store.newClass, Store.bound?]

/-- A class form first looks at its shape: if that is wrong it fails with a syntax error and nothing
has happened. Otherwise it evaluates the maker and the parts of the members in order, up to the
first fault. If it fails, the evaluations made so far account for all that the scopes hold. If it
succeeds, all parts have been evaluated, and then the name was bound in the scope of the form alone,
to a class in which the last function given under a name is the method, with the names in the order
in which they were first given. -/
theorem class_form_comesTo (limits : Limits) (scope : ScopeRef) (s : Store)
    (hscope : scope < s.scopes.size) :
    (∀ args, (∀ c : ClassSyntax, args ≠ c.args) →
      ∃ fault, fault.cause.kind = .syntaxError ∧
        ∀ o, Machine.ComesTo limits (.begin .classForm args scope [] s) o ↔
          o = ⟨.error fault, s⟩) ∧
    ∀ c : ClassSyntax,
      (∀ o, Machine.ComesTo limits (.begin .classForm c.args scope [] s) o ↔
        ClassRuns limits c.name c.maker (c.members.map Member.parts) scope s o) ∧
      (∀ fault s', Machine.ComesTo limits (.begin .classForm c.args scope [] s) ⟨.error fault, s'⟩ →
        ∃ es, es <+: c.evaluated ∧ ScopesBy limits scope es s s') ∧
      ∀ v s', Machine.ComesTo limits (.begin .classForm c.args scope [] s) ⟨.ok v, s'⟩ →
        ∃ make entries s₁ s₂,
          Reads limits scope acceptMaker c.maker s (.ok make) s₁ ∧
          Gathers limits c.name scope (c.members.map Member.parts) s₁ (.ok entries) s₂ ∧
          ScopesBy limits scope c.evaluated s s₂ ∧
          BindsClass c.name make entries scope s₂ v s' := by
  constructor
  · intro args hargs
    obtain ⟨fault, hkind, hbegin⟩ := Machine.begin_classForm_of_ne hargs []
    refine ⟨fault, hkind, fun o => ?_⟩
    rw [hbegin]
    exact Machine.comesTo_iff_of_end rfl
  intro c
  have hruns : ∀ o, Machine.ComesTo limits (.begin .classForm c.args scope [] s) o ↔
      ClassRuns limits c.name c.maker (c.members.map Member.parts) scope s o := by
    intro o
    rw [Machine.begin_classSyntax]
    exact Machine.comesTo_class_iff
  have hparts : c.evaluated =
      c.maker :: (c.members.map Member.parts).flatMap fun m => [m.1, m.2] := by
    rw [List.flatMap_map]
    rfl
  refine ⟨hruns, fun fault s' hfails => ?_, fun v s' hmade => ?_⟩
  · rw [hparts]
    cases (hruns _).mp hfails with
    | badMaker hmaker => exact ⟨[c.maker], ⟨_, rfl⟩, .cons_of_reads hmaker (.none rfl)⟩
    | badMember hmaker hmembers =>
      obtain ⟨es, hes, hby, -⟩ := hmembers.scopesBy
      exact ⟨c.maker :: es, List.cons_prefix_cons.mpr ⟨rfl, hes⟩, .cons_of_reads hmaker hby⟩
  · generalize ho : (⟨.ok v, s'⟩ : Outcome) = o at hmade
    cases (hruns _).mp hmade with
    | badMaker => cases ho
    | badMember => cases ho
    | @binds make s₁ s₂ entries hmaker hmembers =>
      obtain ⟨es, -, hby, hall⟩ := hmembers.scopesBy
      obtain rfl := hall rfl
      have hevaluated := hparts ▸ ScopesBy.cons_of_reads hmaker hby
      exact ⟨make, entries, s₁, s₂, hmaker, hmembers, hevaluated,
        bindsClass_bindClass _ _ _ (Nat.lt_of_lt_of_le hscope hevaluated.scopes_le) ho.symm⟩

/-- The class form `class(P, print, method(define(x, "a"), min), method("b", min), method(x, max))`:
its last member is named by what the first one has defined, and takes its place. A class form
without a maker is refused. -/
theorem class_form_comesTo_same_name :
    ∃ (s : Store) (c : ClassSyntax), 1 < s.scopes.size ∧
      (∃ v s', Machine.ComesTo ⟨none, none⟩ (.begin .classForm c.args 1 [] s) ⟨.ok v, s'⟩ ∧
        (∃ make entries s₂, BindsClass "P" make entries 1 s₂ v s') ∧
        (s'.classes.back?.any fun info => info.methods.order = [↑"a", ↑"b"] ∧
          info.methods.get? "a" = some (.builtin .max 0)) = true) ∧
      ∃ fault, ∀ o, Machine.ComesTo ⟨none, none⟩ (.begin .classForm [.word "P" ⟨1, 7⟩] 1 [] s) o ↔
        o = ⟨.error fault, s⟩ := by
  have h := class_form_comesTo ⟨none, none⟩ 1 (Store.initial (.fresh none) false).2
    (by decide +kernel)
  let c : ClassSyntax := ⟨"P", ⟨1, 7⟩, .word "print" ⟨1, 10⟩,
    [⟨⟨1, 17⟩, .apply (.word "define" ⟨1, 24⟩) [.word "x" ⟨1, 31⟩, .string "a" ⟨1, 34⟩],
        .word "min" ⟨1, 40⟩⟩,
      ⟨⟨1, 46⟩, .string "b" ⟨1, 53⟩, .word "min" ⟨1, 58⟩⟩,
      ⟨⟨1, 64⟩, .word "x" ⟨1, 71⟩, .word "max" ⟨1, 74⟩⟩]⟩
  refine ⟨(Store.initial (.fresh none) false).2, c, by decide +kernel, ?_, ?_⟩
  · obtain ⟨⟨result, s'⟩, ho, hcheck⟩ := (Option.any_eq_true ..).mp (by decide +kernel :
      ((Machine.run ⟨none, none⟩ 30 (.begin .classForm c.args 1 []
        (Store.initial (.fresh none) false).2)).any fun o => o.result.isOk &&
          o.store.classes.back?.any fun info => info.methods.order = [↑"a", ↑"b"] ∧
            info.methods.get? "a" = some (.builtin .max 0)) = true)
    rw [Bool.and_eq_true] at hcheck
    cases result with
    | error fault => cases hcheck.1
    | ok v =>
      obtain ⟨make, entries, -, s₂, -, -, -, hbinds⟩ := (h.2 c).2.2 v s' ⟨30, ho⟩
      exact ⟨v, s', ⟨30, ho⟩, ⟨make, entries, s₂, hbinds⟩, hcheck.2⟩
  · obtain ⟨fault, -, hfails⟩ := h.1 [.word "P" ⟨1, 7⟩] fun other heq => by
      simp [ClassSyntax.args] at heq
    exact ⟨fault, hfails⟩

end TinyScript
