import TinyScript.Proofs.Blame
import TinyScript.Proofs.Runs

/-!
# What one step does

Everything that one step of the machine can do, said once: which expression or call is worked on
next, which frames are pushed, and how the store changes. Invariants of runs are read off from this
list. Small relations say what a form opens with and what a frame does with a value.
-/

namespace TinyScript

/-- Only the label of a form stands for it. -/
theorem Form.ofName?_eq_some_iff {name : Text} {form : Form} :
    Form.ofName? name = some form ↔ name = form.label := by
  constructor
  · intro h
    obtain ⟨entry, hfind, rfl⟩ := Option.map_eq_some_iff.mp h
    have hlabel : entry.1 = name := by simpa using List.find?_some hfind
    obtain ⟨other, -, rfl⟩ := List.mem_map.mp (List.mem_of_find?_eq_some hfind)
    exact hlabel.symm
  · rintro rfl
    cases form <;> decide

/-- A limit is what was passed. -/
def Cause.IsLimit : Cause → Prop
  | .stepBudget _ | .nestingDepth _ => True
  | _ => False

/-- What a form evaluates first, and the frame that waits for it. -/
inductive Form.Opens (scope : ScopeRef) : Form → List Expr → Expr → Frame → Prop where
  | branch (test yes no : Expr) : Opens scope .branch [test, yes, no] test (.branch yes no scope)
  | loop (test body : Expr) : Opens scope .loop [test, body] test (.loopTest test body scope)
  | sequence (e : Expr) (rest : List Expr) :
      Opens scope .sequence (e :: rest) e (.sequence rest scope)
  | define (name : Text) (p : Position) (e : Expr) :
      Opens scope .define [.word name p, e] e (.define name scope)
  | assign (name : Text) (p : Position) (e : Expr) :
      Opens scope .assign [.word name p, e] e (.assign name p scope)
  | classForm (name : Text) (p : Position) (maker : Expr) {rest : List Expr}
      {members : List (Expr × Expr)} (hmembers : Machine.members rest = .ok members) :
      Opens scope .classForm (.word name p :: maker :: rest) maker
        (.classMaker maker.pos ⟨name, members, scope⟩)

/-- A fault that a running program can have and whose place, if it has one, is that of one of some
expressions. -/
structure Fault.Among (es : List Expr) (fault : Fault) : Prop where
  cause : fault.cause.IsRegular
  place : ∀ p, fault.place = some p → ∃ e ∈ es, e.pos = p

namespace Frame

/-- A frame that collects arguments, with a value handed to it: the function, the arguments known,
newest first, and those still to be evaluated. -/
inductive Collects :
    Value → Frame → Value → Expr → List Value → List Expr → ScopeRef → Prop where
  | operator {f : Value} (hf : f.isCallable = true) (op : Expr) (args : List Expr)
      (scope : ScopeRef) : Collects f (.operator op args scope) f op [] args scope
  | operand (v f : Value) (op : Expr) (done : List Value) (rest : List Expr) (scope : ScopeRef) :
      Collects v (.operand f op done rest scope) f op (v :: done) rest scope

/-- A frame that goes on to an expression when it gets a value, and the frames that then wait. -/
inductive Continues : Value → Frame → Expr → ScopeRef → List Frame → Prop where
  | branch (v : Value) (yes no : Expr) (scope : ScopeRef) :
      Continues v (.branch yes no scope) (if v.isTruthy then yes else no) scope []
  | loopTest {v : Value} (hv : v.isTruthy = true) (test body : Expr) (scope : ScopeRef) :
      Continues v (.loopTest test body scope) body scope [.loopBody test body scope]
  | loopBody (v : Value) (test body : Expr) (scope : ScopeRef) :
      Continues v (.loopBody test body scope) test scope [.loopTest test body scope]
  | sequence (v : Value) (e : Expr) (rest : List Expr) (scope : ScopeRef) :
      Continues v (.sequence (e :: rest) scope) e scope [.sequence rest scope]
  | methodName (name : Text) (p : Position) (function : Expr) (maker : Value) (methods : Methods)
      (plan : ClassPlan) :
      Continues (.string name) (.methodName p function maker methods plan) function plan.scope
        [.methodFunction name function.pos maker methods plan]

/-- A frame that gives a value on when it gets one, and changes nothing. -/
inductive Gives : Value → Frame → Value → Prop where
  | loopTest {v : Value} (hv : v.isTruthy = false) (test body : Expr) (scope : ScopeRef) :
      Gives v (.loopTest test body scope) (.boolean false)
  | sequence (v : Value) (scope : ScopeRef) : Gives v (.sequence [] scope) v
  | construct (v created : Value) : Gives v (.construct created) created

/-- A frame of a class form that gets the maker or a method: what is known of the class then, and
the store, in which a method without a name has got one. -/
inductive Learns (s : Store) :
    Value → Frame → Value → Methods → ClassPlan → Store → Prop where
  | maker {v : Value} (hv : v.isCallable = true) (p : Position) (plan : ClassPlan) :
      Learns s v (.classMaker p plan) v .empty plan s
  | method {v : Value} (hv : v.isCallable = true) (name : Text) (p : Position) (maker : Value)
      (methods : Methods) (plan : ClassPlan) :
      Learns s v (.methodFunction name p maker methods plan) maker (methods.put name v) plan
        (s.nameClosure v (plan.name ++ "." ++ name))

/-- A frame that can do nothing with a value it gets, and the fault that it raises. -/
inductive Rejects (s : Store) : Value → Frame → Fault → Prop where
  | operator {v : Value} (op : Expr) (args : List Expr) (scope : ScopeRef) :
      Rejects s v (.operator op args scope) (.placed .notApplicable op.pos)
  | assign {v : Value} {name : Text} {scope : ScopeRef} (h : s.owner scope name = none)
      (p : Position) : Rejects s v (.assign name p scope) (.placed (.undefinedName name) p)
  | maker (v : Value) (p : Position) (plan : ClassPlan) :
      Rejects s v (.classMaker p plan) (.placed (.constructorNotFunction v.type) p)
  | methodName (v : Value) (p : Position) (function : Expr) (maker : Value) (methods : Methods)
      (plan : ClassPlan) :
      Rejects s v (.methodName p function maker methods plan)
        (.placed (.methodNameNotString v.type) p)
  | method (v : Value) (name : Text) (p : Position) (maker : Value) (methods : Methods)
      (plan : ClassPlan) :
      Rejects s v (.methodFunction name p maker methods plan)
        (.placed (.methodNotFunction name v.type) p)

/-- A frame that a fault passes without a trace: neither an application nor a recorded call. -/
def IsSilent : Frame → Prop
  | .application _ | .traced _ => False
  | _ => True

end Frame

namespace Machine

/-- What can come of a state in one step. -/
inductive Next (limits : Limits) : Machine → Machine → Prop where
  | exceeded {e : Expr} {scope : ScopeRef} {stack : List Frame} {s : Store} {cause : Cause}
      (hcause : cause.IsLimit) :
      Next limits (evaluating e scope stack s)
        (raising (.placed cause e.pos) stack { s with steps := s.steps + 1 })
  | literal {e : Expr} {scope : ScopeRef} {stack : List Frame} {s : Store} {v : Value}
      (hv : v.IsAtom) :
      Next limits (evaluating e scope stack s) (giving v stack { s with steps := s.steps + 1 })
  | word {name : Text} {p : Position} {scope : ScopeRef} {stack : List Frame} {s : Store}
      {v : Value} (hv : s.lookup scope name = some v) :
      Next limits (evaluating (.word name p) scope stack s)
        (giving v stack { s with steps := s.steps + 1 })
  | unbound {name : Text} {p : Position} {scope : ScopeRef} {stack : List Frame} {s : Store}
      (hname : s.lookup scope name = none) :
      Next limits (evaluating (.word name p) scope stack s)
        (raising (.placed (.undefinedName name) p) stack { s with steps := s.steps + 1 })
  | operator {op : Expr} {args : List Expr} {scope : ScopeRef} {stack : List Frame} {s : Store} :
      Next limits (evaluating (.apply op args) scope stack s)
        (evaluating op scope (.operator op args scope :: .application op :: stack)
          { s with steps := s.steps + 1, depth := s.depth + 1 })
  | form {form : Form} {p : Position} {args : List Expr} {scope : ScopeRef} {stack : List Frame}
      {s : Store} {e : Expr} {frame : Frame} (h : form.Opens scope args e frame) :
      Next limits (evaluating (.apply (.word form.label p) args) scope stack s)
        (evaluating e scope (frame :: .application (.word form.label p) :: stack)
          { s with steps := s.steps + 1, depth := s.depth + 1 })
  | nothing {op : Expr} {args : List Expr} {scope : ScopeRef} {stack : List Frame} {s : Store} :
      Next limits (evaluating (.apply op args) scope stack s)
        (giving (.boolean false) (.application op :: stack)
          { s with steps := s.steps + 1, depth := s.depth + 1 })
  | function {p : Position} {args : List Expr} {scope : ScopeRef} {stack : List Frame} {s : Store}
      {params : List Text} {body : Expr} (hparams : words args.dropLast = .ok params)
      (hbody : args.getLast? = some body) :
      Next limits (evaluating (.apply (.word Form.function.label p) args) scope stack s)
        (giving (.closure s.closures.size) (.application (.word Form.function.label p) :: stack)
          { s with
            steps := s.steps + 1
            depth := s.depth + 1
            closures := s.closures.push ⟨Text.empty, params, body, scope⟩ })
  | malformed {op : Expr} {args : List Expr} {scope : ScopeRef} {stack : List Frame} {s : Store}
      {fault : Fault} (hfault : fault.Among args) :
      Next limits (evaluating (.apply op args) scope stack s)
        (raising fault (.application op :: stack)
          { s with steps := s.steps + 1, depth := s.depth + 1 })
  | body {r : ClosureRef} {args : List Value} {stack : List Frame} {s : Store} {c : Closure}
      (hc : s.closures[r]? = some c) (hlength : args.length = c.params.length) :
      Next limits (calling (.closure r) args stack s)
        (evaluating c.body s.scopes.size stack
          (s.newScope (some c.scope) (bindParams c.params args)).2)
  | make {r : ClassRef} {args : List Value} {stack : List Frame} {s : Store} {info : ClassInfo}
      (hinfo : s.classes[r]? = some info) :
      Next limits (calling (.classRef r) args stack s)
        (calling info.maker ((s.bear r).1 :: args) (.construct (s.bear r).1 :: stack)
          (s.bear r).2)
  | builtin {b : Builtin} {home : ScopeRef} {args : List Value} {stack : List Frame} {s : Store} :
      Next limits (calling (.builtin b home) args stack s) (reply (b.run s args) stack)
  | uncallable {f : Value} {args : List Value} {stack : List Frame} {s : Store} {cause : Cause}
      (hcause : cause.IsRegular ∨ cause = .outOfRange ∧ ¬ f.Within s.extent) :
      Next limits (calling f args stack s) (fail cause stack s)
  | leave {v : Value} {op : Expr} {stack : List Frame} {s : Store} :
      Next limits (giving v (.application op :: stack) s)
        (giving v stack { s with depth := s.depth - 1 })
  | operand {v f : Value} {frame : Frame} {op e : Expr} {done : List Value} {rest : List Expr}
      {scope : ScopeRef} {stack : List Frame} {s : Store}
      (h : frame.Collects v f op done (e :: rest) scope) :
      Next limits (giving v (frame :: stack) s)
        (evaluating e scope (.operand f op done rest scope :: stack) s)
  | call {v f : Value} {frame : Frame} {op : Expr} {done : List Value} {scope : ScopeRef}
      {stack : List Frame} {s : Store} (h : frame.Collects v f op done [] scope) :
      Next limits (giving v (frame :: stack) s) (calling f done.reverse stack s)
  | tracedCall {v f : Value} {frame : Frame} {op : Expr} {done : List Value} {scope : ScopeRef}
      {stack : List Frame} {s : Store} (h : frame.Collects v f op done [] scope) :
      Next limits (giving v (frame :: stack) s)
        (calling f done.reverse (.traced (callName s f op) :: stack)
          (s.record .begins (callName s f op)))
  | traced {v : Value} {name : Text} {stack : List Frame} {s : Store} :
      Next limits (giving v (.traced name :: stack) s) (giving v stack (s.record .ends name))
  | goOn {v : Value} {frame : Frame} {e : Expr} {scope : ScopeRef} {frames stack : List Frame}
      {s : Store} (h : frame.Continues v e scope frames) :
      Next limits (giving v (frame :: stack) s) (evaluating e scope (frames ++ stack) s)
  | give {v w : Value} {frame : Frame} {stack : List Frame} {s : Store} (h : frame.Gives v w) :
      Next limits (giving v (frame :: stack) s) (giving w stack s)
  | define {v : Value} {name : Text} {scope : ScopeRef} {stack : List Frame} {s : Store} :
      Next limits (giving v (.define name scope :: stack) s)
        (giving v stack ((s.nameClosure v name).define scope name v))
  | assign {v : Value} {name : Text} {p : Position} {scope owner : ScopeRef} {stack : List Frame}
      {s : Store} (howner : s.owner scope name = some owner) :
      Next limits (giving v (.assign name p scope :: stack) s)
        (giving v stack (s.define owner name v))
  | member {v maker : Value} {frame : Frame} {methods : Methods} {plan : ClassPlan}
      {name function : Expr} {rest : List (Expr × Expr)} {stack : List Frame} {s s' : Store}
      (h : frame.Learns s v maker methods plan s')
      (hmembers : plan.members = (name, function) :: rest) :
      Next limits (giving v (frame :: stack) s)
        (evaluating name plan.scope
          (.methodName name.pos function maker methods { plan with members := rest } :: stack) s')
  | madeClass {v maker : Value} {frame : Frame} {methods : Methods} {plan : ClassPlan}
      {stack : List Frame} {s s' : Store} (h : frame.Learns s v maker methods plan s') :
      Next limits (giving v (frame :: stack) s)
        (giving (.classRef s'.classes.size) stack
          ((s'.newClass ⟨plan.name, maker, methods⟩).2.define plan.scope plan.name
            (.classRef s'.classes.size)))
  | rejected {v : Value} {frame : Frame} {fault : Fault} {stack : List Frame} {s : Store}
      (h : frame.Rejects s v fault) :
      Next limits (giving v (frame :: stack) s) (raising fault stack s)
  | resume {v : Value} {pending : Pending} {stack : List Frame} {s : Store} :
      Next limits (giving v (.builtin pending :: stack) s) (reply (pending.resume s v) stack)
  | locate {fault : Fault} {op : Expr} {stack : List Frame} {s : Store} :
      Next limits (raising fault (.application op :: stack) s)
        (raising (located op fault) stack { s with depth := s.depth - 1 })
  | tracedFault {fault : Fault} {name : Text} {stack : List Frame} {s : Store} :
      Next limits (raising fault (.traced name :: stack) s)
        (raising fault stack (s.record .ends name))
  | pass {fault : Fault} {frame : Frame} {stack : List Frame} {s : Store}
      (hframe : frame.IsSilent) :
      Next limits (raising fault (frame :: stack) s) (raising fault stack s)

/-- What is blamed for not being a word is one of the expressions. -/
theorem exists_pos_of_words {es : List Expr} {p : Position} (h : words es = .error p) :
    ∃ e ∈ es, e.pos = p := by
  fun_induction words es with
  | case1 => exact nomatch h
  | case2 name q rest ih =>
    cases hrest : words rest with
    | ok names =>
      rw [hrest] at h
      exact nomatch h
    | error q =>
      rw [hrest] at h
      obtain rfl := Except.error.inj h
      obtain ⟨e, he, hpos⟩ := ih hrest
      exact ⟨e, List.mem_cons_of_mem _ he, hpos⟩
  | case3 e rest _ =>
    obtain rfl := Except.error.inj h
    exact ⟨e, List.mem_cons_self, rfl⟩

/-- What is blamed for not being a member is one of the expressions. -/
theorem exists_pos_of_members {es : List Expr} {p : Position} (h : members es = .error p) :
    ∃ e ∈ es, e.pos = p := by
  fun_induction members es with
  | case1 => exact nomatch h
  | case2 q name function rest ih =>
    cases hrest : members rest with
    | ok ms =>
      rw [hrest] at h
      exact nomatch h
    | error q =>
      rw [hrest] at h
      obtain rfl := Except.error.inj h
      obtain ⟨e, he, hpos⟩ := ih hrest
      exact ⟨e, List.mem_cons_of_mem _ he, hpos⟩
  | case3 head q name function rest _ =>
    obtain rfl := Except.error.inj h
    exact ⟨_, List.mem_cons_self, rfl⟩
  | case4 e rest _ =>
    obtain rfl := Except.error.inj h
    exact ⟨e, List.mem_cons_self, rfl⟩

section Steps

variable {limits : Limits} {stack : List Frame} {s : Store}

/-- Beginning a class form is one of the things that a step can do. -/
theorem next_beginClass {op : Expr} {args : List Expr} {scope : ScopeRef} {p : Position}
    (hop : op = .word Form.classForm.label p) :
    Next limits (evaluating (.apply op args) scope stack s)
      (beginClass args scope (.application op :: stack)
        { s with steps := s.steps + 1, depth := s.depth + 1 }) := by
  subst hop
  unfold beginClass
  split
  · rename_i name maker rest
    split
    · split
      · rename_i hmembers
        exact .form (.classForm _ _ _ hmembers)
      · rename_i hmembers
        refine .malformed ⟨rfl, ?_⟩
        rintro _ ⟨⟩
        obtain ⟨e, he, hpos⟩ := exists_pos_of_members hmembers
        exact ⟨e, by simp [he], hpos⟩
    · refine .malformed ⟨rfl, ?_⟩
      rintro _ ⟨⟩
      exact ⟨name, by simp, rfl⟩
  · exact .malformed ⟨rfl, nofun⟩

/-- Beginning a form is one of the things that a step can do. -/
theorem next_begin {form : Form} {args : List Expr} {scope : ScopeRef} (p : Position) :
    Next limits (evaluating (.apply (.word form.label p) args) scope stack s)
      (begin form args scope (.application (.word form.label p) :: stack)
        { s with steps := s.steps + 1, depth := s.depth + 1 }) := by
  have hfail {cause : Cause} (h : cause.IsRegular) :
      Next limits (evaluating (.apply (.word form.label p) args) scope stack s)
        (fail cause (.application (.word form.label p) :: stack)
          { s with steps := s.steps + 1, depth := s.depth + 1 }) :=
    .malformed ⟨h, nofun⟩
  cases form with
  | branch =>
    simp only [begin]
    split
    · exact .form (.branch ..)
    · exact hfail rfl
  | loop =>
    simp only [begin]
    split
    · exact .form (.loop ..)
    · exact hfail rfl
  | sequence =>
    cases args with
    | nil => exact .nothing
    | cons e rest => exact .form (.sequence e rest)
  | define =>
    simp only [begin]
    split
    · exact .form (.define ..)
    · exact hfail rfl
  | assign =>
    simp only [begin]
    split
    · exact .form (.assign ..)
    · exact hfail rfl
  | function =>
    simp only [begin]
    split
    · exact hfail rfl
    · rename_i body hbody
      split
      · rename_i params hparams
        exact .function hparams hbody
      · rename_i q hwords
        refine .malformed ⟨rfl, ?_⟩
        rintro _ ⟨⟩
        obtain ⟨e, he, hpos⟩ := exists_pos_of_words hwords
        exact ⟨e, List.dropLast_subset _ he, hpos⟩
  | classForm => exact next_beginClass rfl

/-- Starting an evaluation within the limits is one of the things that a step can do. -/
theorem next_start {e : Expr} {scope : ScopeRef} :
    Next limits (evaluating e scope stack s)
      (start e scope stack { s with steps := s.steps + 1 }) := by
  cases e with
  | number x p => exact .literal trivial
  | string t p => exact .literal trivial
  | word name p =>
    simp only [start]
    split
    · rename_i v hv
      exact .word hv
    · rename_i hname
      exact .unbound hname
  | apply op args =>
    simp only [start]
    split
    · rename_i name p
      split
      · rename_i form hform
        rw [Form.ofName?_eq_some_iff.mp hform]
        exact next_begin p
      · exact .operator
    · exact .operator

/-- Evaluating an expression is one of the things that a step can do. -/
theorem next_eval (e : Expr) (scope : ScopeRef) :
    Next limits (evaluating e scope stack s) (eval limits e scope stack s) := by
  simp only [eval]
  split
  · exact .exceeded trivial
  · split
    · exact .exceeded trivial
    · exact next_start

/-- Making a call is one of the things that a step can do. -/
theorem next_call (f : Value) (args : List Value) :
    Next limits (calling f args stack s) (call f args stack s) := by
  cases f with
  | closure r =>
    simp only [call]
    split
    · rename_i hnone
      exact .uncallable (.inr ⟨rfl, Nat.not_lt.mpr (Array.getElem?_eq_none_iff.mp hnone)⟩)
    · rename_i c hc
      split
      · exact .uncallable (.inl rfl)
      · rename_i hlength
        exact .body hc (not_not.mp hlength)
  | builtin b home => exact .builtin
  | classRef r =>
    simp only [call]
    split
    · rename_i hnone
      exact .uncallable (.inr ⟨rfl, Nat.not_lt.mpr (Array.getElem?_eq_none_iff.mp hnone)⟩)
    · rename_i info hinfo
      exact .make hinfo
  | _ => exact .uncallable (.inl rfl)

/-- Going on with the next operand is one of the things that a step can do. -/
theorem next_operands {v f : Value} {frame : Frame} {op : Expr} {done : List Value}
    {rest : List Expr} {scope : ScopeRef} (h : frame.Collects v f op done rest scope) :
    Next limits (giving v (frame :: stack) s) (operands f op done rest scope stack s) := by
  cases rest with
  | cons e rest => exact .operand h
  | nil =>
    simp only [operands, enter]
    split
    · exact .tracedCall h
    · exact .call h

/-- Going on with the next member of a class is one of the things that a step can do. -/
theorem next_nextMember {v maker : Value} {frame : Frame} {methods : Methods} {plan : ClassPlan}
    {s' : Store} (h : frame.Learns s v maker methods plan s') :
    Next limits (giving v (frame :: stack) s) (nextMember maker methods plan stack s') := by
  unfold nextMember
  split
  · exact .madeClass h
  · rename_i hmembers
    exact .member h hmembers

/-- Handing a value to a frame is one of the things that a step can do. -/
theorem next_resume (v : Value) (frame : Frame) :
    Next limits (giving v (frame :: stack) s) (Machine.resume v frame stack s) := by
  cases frame with
  | application op => exact .leave
  | operator op args scope =>
    simp only [Machine.resume]
    split
    · rename_i hv
      exact next_operands (.operator hv op args scope)
    · exact .rejected (.operator op args scope)
  | operand f op done rest scope => exact next_operands (.operand v f op done rest scope)
  | traced name => exact .traced
  | branch yes no scope => exact .goOn (.branch v yes no scope)
  | loopTest test body scope =>
    simp only [Machine.resume]
    split
    · rename_i hv
      exact .goOn (.loopTest hv test body scope)
    · rename_i hv
      exact .give (.loopTest (Bool.eq_false_iff.mpr hv) test body scope)
  | loopBody test body scope => exact .goOn (.loopBody v test body scope)
  | sequence rest scope =>
    cases rest with
    | nil => exact .give (.sequence v scope)
    | cons e rest => exact .goOn (.sequence v e rest scope)
  | define name scope => exact .define
  | assign name p scope =>
    simp only [Machine.resume]
    split
    · rename_i howner
      exact .assign howner
    · rename_i howner
      exact .rejected (.assign howner p)
  | classMaker p plan =>
    simp only [Machine.resume]
    split
    · rename_i hv
      exact next_nextMember (.maker hv p plan)
    · exact .rejected (.maker v p plan)
  | methodName p function maker methods plan =>
    simp only [Machine.resume]
    split
    · exact .goOn (.methodName _ p function maker methods plan)
    · exact .rejected (.methodName v p function maker methods plan)
  | methodFunction name p maker methods plan =>
    simp only [Machine.resume]
    split
    · rename_i hv
      exact next_nextMember (.method hv name p maker methods plan)
    · exact .rejected (.method v name p maker methods plan)
  | construct created => exact .give (.construct v created)
  | builtin pending => exact .resume

/-- Handing a fault to a frame is one of the things that a step can do. -/
theorem next_unwind (fault : Fault) (frame : Frame) :
    Next limits (raising fault (frame :: stack) s) (unwind fault frame stack s) := by
  cases frame with
  | application op => exact .locate
  | traced name => exact .tracedFault
  | _ => exact .pass trivial

end Steps

/-- A step does one of the things listed. -/
theorem next_of_step {limits : Limits} {m m' : Machine} (h : step limits m = .inl m') :
    Next limits m m' := by
  cases m with
  | evaluating e scope stack s =>
    obtain rfl := Sum.inl.inj h
    exact next_eval e scope
  | calling f args stack s =>
    obtain rfl := Sum.inl.inj h
    exact next_call f args
  | giving v stack s =>
    cases stack with
    | nil => exact nomatch h
    | cons frame stack =>
      obtain rfl := Sum.inl.inj h
      exact next_resume v frame
  | raising fault stack s =>
    cases stack with
    | nil => exact nomatch h
    | cons frame stack =>
      obtain rfl := Sum.inl.inj h
      exact next_unwind fault frame

/-- What every step keeps is kept by a run. -/
theorem Reaches.invariant {limits : Limits} {m m' : Machine} {I : Machine → Prop}
    (h : Reaches limits m m') (hm : I m)
    (hnext : ∀ m₁ m₂, Next limits m₁ m₂ → I m₁ → I m₂) : I m' := by
  induction h with
  | refl => exact hm
  | tail _ hstep ih => exact hnext _ _ (next_of_step hstep) ih

/-- The outcome of a run is that of a state that comes up in it and has an empty stack. -/
theorem exists_reaches_of_run {limits : Limits} {fuel : Nat} {m : Machine} {o : Outcome}
    (h : run limits fuel m = some o) :
    (∃ v, Reaches limits m (giving v [] o.store) ∧ o.result = .ok v) ∨
      ∃ fault, Reaches limits m (raising fault [] o.store) ∧ o.result = .error fault := by
  induction fuel generalizing m with
  | zero => cases h
  | succ fuel ih =>
    rw [run] at h
    split at h
    · rename_i m' hstep
      have hreaches := reaches_of_step hstep
      rcases ih h with ⟨v, hv, hresult⟩ | ⟨fault, hfault, hresult⟩
      · exact .inl ⟨v, hreaches.trans hv, hresult⟩
      · exact .inr ⟨fault, hreaches.trans hfault, hresult⟩
    · rename_i outcome hstep
      obtain rfl := Option.some.inj h
      cases m with
      | evaluating | calling => cases hstep
      | giving v stack s =>
        cases stack with
        | nil =>
          obtain rfl := Sum.inr.inj hstep
          exact .inl ⟨v, .refl _, rfl⟩
        | cons frame stack => cases hstep
      | raising fault stack s =>
        cases stack with
        | nil =>
          obtain rfl := Sum.inr.inj hstep
          exact .inr ⟨fault, .refl _, rfl⟩
        | cons frame stack => cases hstep

/-- However a run ends, its store is that of a state that comes up in it and has an empty stack. -/
theorem exists_end_of_run {limits : Limits} {fuel : Nat} {m : Machine} {o : Outcome}
    (h : run limits fuel m = some o) :
    ∃ m', Reaches limits m m' ∧ m'.stack = [] ∧ m'.store = o.store := by
  rcases exists_reaches_of_run h with ⟨v, hreaches, -⟩ | ⟨fault, hreaches, -⟩
  · exact ⟨_, hreaches, rfl, rfl⟩
  · exact ⟨_, hreaches, rfl, rfl⟩

/-- The fault that a run ends in is raised in it, with nothing left to pass. -/
theorem reaches_raising_of_run {limits : Limits} {fuel : Nat} {m : Machine} {o : Outcome}
    {fault : Fault} (h : run limits fuel m = some o) (hfault : o.result = .error fault) :
    Reaches limits m (raising fault [] o.store) := by
  rcases exists_reaches_of_run h with ⟨v, -, hresult⟩ | ⟨fault', hreaches, hresult⟩
  · cases hfault.symm.trans hresult
  · obtain rfl := Except.error.inj (hfault.symm.trans hresult)
    exact hreaches

end Machine

end TinyScript
