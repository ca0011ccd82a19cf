import TinyScript.Proofs.Atoms

/-!
# Readings

A reading is a run of the reader without the bound on its length: one rule for every way an
expression, the argument lists behind an operator, or the arguments of a list can be read or can
fail. The reader has exactly one reading of every text, and the bound that it starts with is always
large enough, since every second call passes a byte.
-/

namespace TinyScript

namespace Cursor

/-- What is left behind a gap is no longer than what was there. -/
theorem length_skipBlank_le (c : Cursor) : c.skipBlank.rest.length ≤ c.rest.length := by
  obtain ⟨gap, hspans, -⟩ := c.skipBlank_spec
  rw [hspans.rest, List.length_append]
  omega

/-- Blanks that were skipped are gone. -/
@[simp] theorem skipBlank_skipBlank (c : Cursor) : c.skipBlank.skipBlank = c.skipBlank := by
  obtain ⟨gap, -, hsettled, -⟩ := c.skipBlank_spec
  exact skipBlank_gap .nil hsettled c.skipBlank.pos

/-- Moving forward by one byte passes the first byte. -/
@[simp] theorem advance_one_cons (b : UInt8) (rest : List UInt8) (p : Position) :
    advance 1 ⟨b :: rest, p⟩ = ⟨rest, p.step b⟩ := rfl

/-- Passing one mark. -/
theorem spans_mark {b : UInt8} {c : Cursor} (h : c.rest.head? = some b) :
    Spans [b] c (c.advance 1) := by
  obtain ⟨rest, hrest⟩ := List.head?_eq_some_iff.mp h
  exact @spans_advance [b] rest c hrest

/-- The mark behind a gap, with the gap. -/
theorem spans_gap_mark {b : UInt8} {c : Cursor} (h : c.skipBlank.rest.head? = some b) :
    ∃ gap, Grammar.Gap false gap ∧ Spans (gap ++ [b]) c (c.skipBlank.advance 1) := by
  obtain ⟨gap, hspans, -, hgap⟩ := c.skipBlank_spec
  obtain ⟨rest, hrest⟩ := List.head?_eq_some_iff.mp h
  rw [hrest] at hgap
  exact ⟨gap, hgap, hspans.append (spans_mark h)⟩

/-- Passing a gap and a mark leaves less to read. -/
theorem length_advance_lt {b : UInt8} {c : Cursor} (h : c.skipBlank.rest.head? = some b) :
    (c.skipBlank.advance 1).rest.length < c.rest.length := by
  obtain ⟨gap, -, hspans⟩ := spans_gap_mark h
  rw [hspans.rest, List.length_append, List.length_append, List.length_singleton]
  omega

end Cursor

namespace Parser

open Cursor

mutual

/-- From the first cursor an expression is read up to the second one. -/
inductive ReadsExpression : Cursor → Expr → Cursor → Prop where
  | atom {c d r : Cursor} {e e' : Expr} (hatom : atom c.skipBlank = .ok (e, d))
      (hcalls : ReadsCalls e d e' r) : ReadsExpression c e' r

/-- The argument lists behind an operator are read. -/
inductive ReadsCalls : Expr → Cursor → Expr → Cursor → Prop where
  | done {e : Expr} {c : Cursor} (hopen : c.skipBlank.rest.head? ≠ some Token.opening) :
      ReadsCalls e c e c.skipBlank
  | empty {e e' : Expr} {c r : Cursor} (hopen : c.skipBlank.rest.head? = some Token.opening)
      (hclose : (c.skipBlank.advance 1).skipBlank.rest.head? = some Token.closing)
      (hcalls : ReadsCalls (.apply e []) ((c.skipBlank.advance 1).skipBlank.advance 1) e' r) :
      ReadsCalls e c e' r
  | call {e e' : Expr} {c d r : Cursor} {args : List Expr}
      (hopen : c.skipBlank.rest.head? = some Token.opening)
      (hclose : (c.skipBlank.advance 1).skipBlank.rest.head? ≠ some Token.closing)
      (hargs : ReadsArguments [] (c.skipBlank.advance 1) args d)
      (hcalls : ReadsCalls (.apply e args) d e' r) : ReadsCalls e c e' r

/-- Arguments are read up to the closing parenthesis, behind those read before, newest first. -/
inductive ReadsArguments : List Expr → Cursor → List Expr → Cursor → Prop where
  | comma {done args : List Expr} {e : Expr} {c d r : Cursor} (hexpr : ReadsExpression c e d)
      (hmark : d.skipBlank.rest.head? = some Token.comma)
      (hargs : ReadsArguments (e :: done) (d.skipBlank.advance 1) args r) :
      ReadsArguments done c args r
  | close {done : List Expr} {e : Expr} {c d : Cursor} (hexpr : ReadsExpression c e d)
      (hmark : d.skipBlank.rest.head? = some Token.closing) :
      ReadsArguments done c (e :: done).reverse (d.skipBlank.advance 1)

end

mutual

/-- No expression is read, with a fault. -/
inductive FailsExpression : Cursor → Fault → Prop where
  | atom {c : Cursor} {fault : Fault} (hatom : atom c.skipBlank = .error fault) :
      FailsExpression c fault
  | calls {c d : Cursor} {e : Expr} {fault : Fault} (hatom : atom c.skipBlank = .ok (e, d))
      (hcalls : FailsCalls e d fault) : FailsExpression c fault

/-- The argument lists behind an operator cannot be read. -/
inductive FailsCalls : Expr → Cursor → Fault → Prop where
  | empty {e : Expr} {c : Cursor} {fault : Fault}
      (hopen : c.skipBlank.rest.head? = some Token.opening)
      (hclose : (c.skipBlank.advance 1).skipBlank.rest.head? = some Token.closing)
      (hcalls : FailsCalls (.apply e []) ((c.skipBlank.advance 1).skipBlank.advance 1) fault) :
      FailsCalls e c fault
  | arguments {e : Expr} {c : Cursor} {fault : Fault}
      (hopen : c.skipBlank.rest.head? = some Token.opening)
      (hclose : (c.skipBlank.advance 1).skipBlank.rest.head? ≠ some Token.closing)
      (hargs : FailsArguments [] (c.skipBlank.advance 1) fault) : FailsCalls e c fault
  | call {e : Expr} {c d : Cursor} {args : List Expr} {fault : Fault}
      (hopen : c.skipBlank.rest.head? = some Token.opening)
      (hclose : (c.skipBlank.advance 1).skipBlank.rest.head? ≠ some Token.closing)
      (hargs : ReadsArguments [] (c.skipBlank.advance 1) args d)
      (hcalls : FailsCalls (.apply e args) d fault) : FailsCalls e c fault

/-- Arguments cannot be read up to a closing parenthesis. -/
inductive FailsArguments : List Expr → Cursor → Fault → Prop where
  | expression {done : List Expr} {c : Cursor} {fault : Fault} (hexpr : FailsExpression c fault) :
      FailsArguments done c fault
  | comma {done : List Expr} {e : Expr} {c d : Cursor} {fault : Fault}
      (hexpr : ReadsExpression c e d) (hmark : d.skipBlank.rest.head? = some Token.comma)
      (hargs : FailsArguments (e :: done) (d.skipBlank.advance 1) fault) :
      FailsArguments done c fault
  | ends {done : List Expr} {e : Expr} {c d : Cursor} (hexpr : ReadsExpression c e d)
      (hend : d.skipBlank.rest = []) :
      FailsArguments done c (.placed (.expectedSeparator true) d.skipBlank.pos)
  | other {done : List Expr} {e : Expr} {c d : Cursor} {b : UInt8} (hexpr : ReadsExpression c e d)
      (hmark : d.skipBlank.rest.head? = some b) (hcomma : b ≠ Token.comma)
      (hclose : b ≠ Token.closing) :
      FailsArguments done c (.placed (.expectedSeparator false) d.skipBlank.pos)

end

/-- An atom leaves less to read. -/
theorem length_atom_lt {c d : Cursor} {e : Expr} (h : atom c = .ok (e, d)) :
    d.rest.length < c.rest.length := by
  obtain ⟨s, hspans, hatom⟩ := atom_sound h
  obtain ⟨b, s, rfl, -⟩ := hatom.front
  rw [hspans.rest, List.length_append, List.length_cons]
  omega

/-- The first atom of an expression leaves less to read. -/
theorem length_atom_skipBlank_lt {c d : Cursor} {e : Expr} (h : atom c.skipBlank = .ok (e, d)) :
    d.rest.length < c.rest.length :=
  (length_atom_lt h).trans_le c.length_skipBlank_le

mutual

/-- An expression that is read leaves less to read. -/
theorem ReadsExpression.length_lt {c r : Cursor} {e : Expr} :
    ReadsExpression c e r → r.rest.length < c.rest.length
  | .atom hatom hcalls => hcalls.length_le.trans_lt (length_atom_skipBlank_lt hatom)

/-- Argument lists that are read leave no more to read. -/
theorem ReadsCalls.length_le {c r : Cursor} {e e' : Expr} :
    ReadsCalls e c e' r → r.rest.length ≤ c.rest.length
  | .done _ => c.length_skipBlank_le
  | .empty hopen hclose hcalls => by
    have hcalls := hcalls.length_le
    have hopen := length_advance_lt hopen
    have hclose := length_advance_lt hclose
    omega
  | .call hopen _ hargs hcalls => by
    have hcalls := hcalls.length_le
    have hargs := hargs.length_lt
    have hopen := length_advance_lt hopen
    omega

/-- Arguments that are read leave less to read. -/
theorem ReadsArguments.length_lt {c r : Cursor} {done args : List Expr} :
    ReadsArguments done c args r → r.rest.length < c.rest.length
  | .comma hexpr hmark hargs => by
    have hargs := hargs.length_lt
    have hmark := length_advance_lt hmark
    have hexpr := hexpr.length_lt
    omega
  | .close hexpr hmark => by
    have hmark := length_advance_lt hmark
    have hexpr := hexpr.length_lt
    omega

end

/-- Where an expression is read is the same in front of a gap and behind it. -/
theorem expression_skipBlank (n : Nat) (c : Cursor) :
    expression n c.skipBlank = expression n c := by
  cases n with
  | zero => rw [expression, expression]
  | succ n => rw [expression, expression, skipBlank_skipBlank]

/-- Where arguments are read is the same in front of a gap and behind it. -/
theorem arguments_skipBlank (n : Nat) (done : List Expr) (c : Cursor) :
    arguments n done c.skipBlank = arguments n done c := by
  cases n with
  | zero => rw [arguments, arguments]
  | succ n => rw [arguments, arguments, expression_skipBlank]

section Equations

variable {n : Nat} {e : Expr} {c d : Cursor} {done : List Expr}

/-- Without an opening parenthesis the operator is all there is. -/
theorem calls_done (hopen : c.skipBlank.rest.head? ≠ some Token.opening) :
    calls (n + 1) e c = .ok (e, c.skipBlank) := by
  rw [calls]
  dsimp only
  split
  · rfl
  · rename_i b rest hrest
    rw [hrest] at hopen
    rw [if_neg (by simpa using hopen)]

/-- Behind an opening parenthesis the list is closed at once or its arguments are read, and then
more lists may follow. -/
theorem calls_open (hopen : c.skipBlank.rest.head? = some Token.opening) :
    calls (n + 1) e c =
      if (c.skipBlank.advance 1).skipBlank.rest.head? = some Token.closing then
        calls n (.apply e []) ((c.skipBlank.advance 1).skipBlank.advance 1)
      else
        match arguments n [] (c.skipBlank.advance 1) with
        | .error fault => .error fault
        | .ok (args, d) => calls n (.apply e args) d := by
  obtain ⟨rest, hrest⟩ := List.head?_eq_some_iff.mp hopen
  rw [calls]
  simp only [hrest, beq_self_eq_true, if_true, beq_iff_eq]
  rewrite [arguments_skipBlank]
  rfl

/-- Behind an argument and a comma, more arguments are read. -/
theorem arguments_comma (hexpr : expression n c = .ok (e, d))
    (hmark : d.skipBlank.rest.head? = some Token.comma) :
    arguments (n + 1) done c = arguments n (e :: done) (d.skipBlank.advance 1) := by
  obtain ⟨rest, hrest⟩ := List.head?_eq_some_iff.mp hmark
  rw [arguments, hexpr]
  simp only [hrest, beq_self_eq_true, if_true]

/-- Behind an argument and a closing parenthesis, the list is done. -/
theorem arguments_close (hexpr : expression n c = .ok (e, d))
    (hmark : d.skipBlank.rest.head? = some Token.closing) :
    arguments (n + 1) done c = .ok ((e :: done).reverse, d.skipBlank.advance 1) := by
  obtain ⟨rest, hrest⟩ := List.head?_eq_some_iff.mp hmark
  have hne : (Token.closing == Token.comma) = false := rfl
  rw [arguments, hexpr]
  simp only [hrest, hne, beq_self_eq_true, if_true, Bool.false_eq_true, if_false]

/-- A text that ends behind an argument lacks a comma or a closing parenthesis, and more of it could
bring one. -/
theorem arguments_ends (hexpr : expression n c = .ok (e, d)) (hend : d.skipBlank.rest = []) :
    arguments (n + 1) done c = .error (.placed (.expectedSeparator true) d.skipBlank.pos) := by
  rw [arguments, hexpr]
  simp only [hend]

/-- Anything else behind an argument stands in the place of a comma or a closing parenthesis. -/
theorem arguments_other {b : UInt8} (hexpr : expression n c = .ok (e, d))
    (hmark : d.skipBlank.rest.head? = some b) (hcomma : b ≠ Token.comma)
    (hclose : b ≠ Token.closing) :
    arguments (n + 1) done c = .error (.placed (.expectedSeparator false) d.skipBlank.pos) := by
  obtain ⟨rest, hrest⟩ := List.head?_eq_some_iff.mp hmark
  rw [arguments, hexpr]
  simp only [hrest, beq_eq_false_iff_ne.mpr hcomma, beq_eq_false_iff_ne.mpr hclose,
    Bool.false_eq_true, if_false]

end Equations

mutual

/-- With a bound that is large enough, an expression is read as its reading says. -/
theorem ReadsExpression.eq {c r : Cursor} {e : Expr} : ReadsExpression c e r →
    ∀ {n : Nat}, 2 * c.rest.length + 2 ≤ n → expression n c = .ok (e, r)
  | .atom hatom hcalls, n + 1, hn => by
    have hlength := length_atom_skipBlank_lt hatom
    rw [expression, hatom]
    exact hcalls.eq (by omega)

/-- With a bound that is large enough, argument lists are read as their reading says. -/
theorem ReadsCalls.eq {c r : Cursor} {e e' : Expr} : ReadsCalls e c e' r →
    ∀ {n : Nat}, 2 * c.rest.length + 2 ≤ n → calls n e c = .ok (e', r)
  | .done hopen, n + 1, _ => calls_done hopen
  | .empty hopen hclose hcalls, n + 1, hn => by
    have hlength := length_advance_lt hopen
    have hlength' := length_advance_lt hclose
    rw [calls_open hopen, if_pos hclose]
    exact hcalls.eq (by omega)
  | .call hopen hclose hargs hcalls, n + 1, hn => by
    have hlength := length_advance_lt hopen
    have hlength' := hargs.length_lt
    rw [calls_open hopen, if_neg hclose, hargs.eq (by omega)]
    exact hcalls.eq (by omega)

/-- With a bound that is large enough, arguments are read as their reading says. -/
theorem ReadsArguments.eq {c r : Cursor} {done args : List Expr} : ReadsArguments done c args r →
    ∀ {n : Nat}, 2 * c.rest.length + 3 ≤ n → arguments n done c = .ok (args, r)
  | .comma hexpr hmark hargs, n + 1, hn => by
    have hlength := hexpr.length_lt
    have hlength' := length_advance_lt hmark
    rw [arguments_comma (hexpr.eq (by omega)) hmark]
    exact hargs.eq (by omega)
  | .close hexpr hmark, n + 1, hn => arguments_close (hexpr.eq (by omega)) hmark

end

mutual

/-- With a bound that is large enough, reading an expression fails as its reading says. -/
theorem FailsExpression.eq {c : Cursor} {fault : Fault} : FailsExpression c fault →
    ∀ {n : Nat}, 2 * c.rest.length + 2 ≤ n → expression n c = .error fault
  | .atom hatom, n + 1, _ => by rw [expression, hatom]
  | .calls hatom hcalls, n + 1, hn => by
    have hlength := length_atom_skipBlank_lt hatom
    rw [expression, hatom]
    exact hcalls.eq (by omega)

/-- With a bound that is large enough, reading argument lists fails as their reading says. -/
theorem FailsCalls.eq {c : Cursor} {e : Expr} {fault : Fault} : FailsCalls e c fault →
    ∀ {n : Nat}, 2 * c.rest.length + 2 ≤ n → calls n e c = .error fault
  | .empty hopen hclose hcalls, n + 1, hn => by
    have hlength := length_advance_lt hopen
    have hlength' := length_advance_lt hclose
    rw [calls_open hopen, if_pos hclose]
    exact hcalls.eq (by omega)
  | .arguments hopen hclose hargs, n + 1, hn => by
    have hlength := length_advance_lt hopen
    rw [calls_open hopen, if_neg hclose, hargs.eq (by omega)]
  | .call hopen hclose hargs hcalls, n + 1, hn => by
    have hlength := length_advance_lt hopen
    have hlength' := hargs.length_lt
    rw [calls_open hopen, if_neg hclose, hargs.eq (by omega)]
    exact hcalls.eq (by omega)

/-- With a bound that is large enough, reading arguments fails as their reading says. -/
theorem FailsArguments.eq {c : Cursor} {done : List Expr} {fault : Fault} :
    FailsArguments done c fault →
      ∀ {n : Nat}, 2 * c.rest.length + 3 ≤ n → arguments n done c = .error fault
  | .expression hexpr, n + 1, hn => by rw [arguments, hexpr.eq (by omega)]
  | .comma hexpr hmark hargs, n + 1, hn => by
    have hlength := hexpr.length_lt
    have hlength' := length_advance_lt hmark
    rw [arguments_comma (hexpr.eq (by omega)) hmark]
    exact hargs.eq (by omega)
  | .ends hexpr hend, n + 1, hn => arguments_ends (hexpr.eq (by omega)) hend
  | .other hexpr hmark hcomma hclose, n + 1, hn =>
    arguments_other (hexpr.eq (by omega)) hmark hcomma hclose

end

/-- The reading behind what an expression is read as. -/
def ExpressionReading (c : Cursor) : Result Expr → Prop
  | .ok (e, r) => ReadsExpression c e r
  | .error fault => FailsExpression c fault

/-- The reading behind what argument lists are read as. -/
def CallsReading (e : Expr) (c : Cursor) : Result Expr → Prop
  | .ok (e', r) => ReadsCalls e c e' r
  | .error fault => FailsCalls e c fault

/-- The reading behind what arguments are read as. -/
def ArgumentsReading (done : List Expr) (c : Cursor) : Result (List Expr) → Prop
  | .ok (args, r) => ReadsArguments done c args r
  | .error fault => FailsArguments done c fault

/-- A reading of argument lists that ends another one. -/
theorem CallsReading.elim {P : Result Expr → Prop} {e : Expr} {c : Cursor} {result : Result Expr}
    (hreads : ∀ e' r, ReadsCalls e c e' r → P (.ok (e', r)))
    (hfails : ∀ fault, FailsCalls e c fault → P (.error fault)) (h : CallsReading e c result) :
    P result := by
  cases result with
  | error fault => exact hfails fault h
  | ok result => exact hreads result.1 result.2 h

/-- An expression has a reading if the argument lists behind its atom have one. -/
theorem expression_step {n : Nat} {c : Cursor}
    (hcalls : ∀ e d, 2 * d.rest.length + 2 ≤ n → CallsReading e d (calls n e d))
    (hn : 2 * c.rest.length + 2 ≤ n + 1) : ExpressionReading c (expression (n + 1) c) := by
  rw [expression]
  cases hatom : atom c.skipBlank with
  | error fault => exact .atom hatom
  | ok result =>
    obtain ⟨e, d⟩ := result
    have hlength := length_atom_skipBlank_lt hatom
    exact (hcalls e d (by omega)).elim (fun _ _ => .atom hatom) (fun _ => .calls hatom)

/-- Argument lists have a reading if the next arguments and the lists behind them have one. -/
theorem calls_step {n : Nat} {e : Expr} {c : Cursor}
    (hcalls : ∀ e d, 2 * d.rest.length + 2 ≤ n → CallsReading e d (calls n e d))
    (hargs : ∀ done d, 2 * d.rest.length + 3 ≤ n → ArgumentsReading done d (arguments n done d))
    (hn : 2 * c.rest.length + 2 ≤ n + 1) : CallsReading e c (calls (n + 1) e c) := by
  by_cases hopen : c.skipBlank.rest.head? = some Token.opening
  · have hlength := length_advance_lt hopen
    rw [calls_open hopen]
    split_ifs with hclose
    · have hlength' := length_advance_lt hclose
      exact (hcalls (.apply e []) _ (by omega)).elim (fun _ _ => .empty hopen hclose)
        (fun _ => .empty hopen hclose)
    · have hreading := hargs [] (c.skipBlank.advance 1) (by omega)
      cases hresult : arguments n [] (c.skipBlank.advance 1) with
      | error fault =>
        rw [hresult] at hreading
        exact .arguments hopen hclose hreading
      | ok result =>
        obtain ⟨args, d⟩ := result
        rw [hresult] at hreading
        have hlength' := ReadsArguments.length_lt hreading
        exact (hcalls (.apply e args) d (by omega)).elim
          (fun _ _ => .call hopen hclose hreading) (fun _ => .call hopen hclose hreading)
  · rw [calls_done hopen]
    exact .done hopen

/-- Arguments have a reading if the next expression and the arguments behind it have one. -/
theorem arguments_step {n : Nat} {done : List Expr} {c : Cursor}
    (hexpr : ∀ d, 2 * d.rest.length + 2 ≤ n → ExpressionReading d (expression n d))
    (hargs : ∀ done d, 2 * d.rest.length + 3 ≤ n → ArgumentsReading done d (arguments n done d))
    (hn : 2 * c.rest.length + 3 ≤ n + 1) :
    ArgumentsReading done c (arguments (n + 1) done c) := by
  have hreading := hexpr c (by omega)
  cases hresult : expression n c with
  | error fault =>
    rw [hresult] at hreading
    rw [arguments, hresult]
    exact .expression hreading
  | ok result =>
    obtain ⟨e, d⟩ := result
    rw [hresult] at hreading
    have hlength := ReadsExpression.length_lt hreading
    cases hmark : d.skipBlank.rest.head? with
    | none =>
      have hend := List.head?_eq_none_iff.mp hmark
      rw [arguments_ends hresult hend]
      exact .ends hreading hend
    | some b =>
      have hlength' := length_advance_lt hmark
      by_cases hcomma : b = Token.comma
      · rw [hcomma] at hmark
        have hreading' := hargs (e :: done) (d.skipBlank.advance 1) (by omega)
        rw [arguments_comma hresult hmark]
        cases hresult' : arguments n (e :: done) (d.skipBlank.advance 1) with
        | error fault =>
          rw [hresult'] at hreading'
          exact .comma hreading hmark hreading'
        | ok result =>
          rw [hresult'] at hreading'
          exact .comma hreading hmark hreading'
      · by_cases hclose : b = Token.closing
        · rw [hclose] at hmark
          rw [arguments_close hresult hmark]
          exact .close hreading hmark
        · rw [arguments_other hresult hmark hcomma hclose]
          exact .other hreading hmark hcomma hclose

/-- With a bound that is large enough, whatever is read has a reading. -/
theorem exists_reading (n : Nat) :
    (∀ c, 2 * c.rest.length + 2 ≤ n → ExpressionReading c (expression n c)) ∧
      (∀ e c, 2 * c.rest.length + 2 ≤ n → CallsReading e c (calls n e c)) ∧
      ∀ done c, 2 * c.rest.length + 3 ≤ n → ArgumentsReading done c (arguments n done c) := by
  induction n with
  | zero => exact ⟨fun c h => by omega, fun e c h => by omega, fun done c h => by omega⟩
  | succ n ih =>
    obtain ⟨hexpr, hcalls, hargs⟩ := ih
    exact ⟨fun c => expression_step hcalls, fun e c => calls_step hcalls hargs,
      fun done c => arguments_step hexpr hargs⟩

end Parser

open TinyScript.Parser

/-- A program is read if an expression is read and nothing but a gap follows it. -/
theorem parse_of_reads {src : Text} {e : Expr} {r : Cursor}
    (h : ReadsExpression (.ofText src) e r) :
    parse src = if r.skipBlank.rest = [] then .ok e
      else .error (.placed .trailingText r.skipBlank.pos) := by
  rw [parse, h.eq (by rw [Text.size_eq_length]; rfl)]
  simp only [Cursor.atEnd, List.isEmpty_iff]

/-- No program is read if no expression is read. -/
theorem parse_of_fails {src : Text} {fault : Fault} (h : FailsExpression (.ofText src) fault) :
    parse src = .error fault := by
  rw [parse, h.eq (by rw [Text.size_eq_length]; rfl)]

/-- An expression is read at the front of a text, or none is, and the fault is known. -/
theorem reads_or_fails (src : Text) :
    (∃ e r, ReadsExpression (.ofText src) e r) ∨ ∃ fault, FailsExpression (.ofText src) fault := by
  have hreading := (exists_reading (2 * src.size + 2)).1 (.ofText src)
    (by rw [Text.size_eq_length]; rfl)
  cases hresult : expression (2 * src.size + 2) (.ofText src) with
  | error fault =>
    rw [hresult] at hreading
    exact .inr ⟨fault, hreading⟩
  | ok result =>
    rw [hresult] at hreading
    exact .inl ⟨result.1, result.2, hreading⟩

end TinyScript
