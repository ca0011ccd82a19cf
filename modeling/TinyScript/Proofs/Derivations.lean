import TinyScript.Proofs.Reading

/-!
# Readings and derivations

Every reading gives a derivation of the grammar, and every derivation gives a reading. An expression
of the grammar begins with an operator, so its derivation goes on to the left, while its reading
goes on to the right: the reading of a derivation is given for every reading of what stands behind
it.

The main statement is that programs are exactly the texts that the grammar derives, each with one
tree, and that reading any other text ends in a syntax error at a place.
-/

namespace TinyScript

open Cursor

namespace Grammar

/-- A byte that belongs to no word ends numbers and words. -/
theorem delimited_cons {b : UInt8} (hb : Token.isWord b = false) (rest : List UInt8) :
    Delimited (b :: rest) := by
  rintro _ ⟨⟩
  exact hb

/-- A gap ends a word. -/
theorem Gap.delimited {atEnd : Bool} {gap rest : List UInt8} (h : Gap atEnd gap)
    (hrest : Delimited rest) : Delimited (gap ++ rest) := by
  cases h with
  | nil => exact hrest
  | blank hb _ => exact delimited_cons (by simp [Token.isWord, hb]) _
  | comment _ _ => exact delimited_cons rfl _
  | lastComment _ _ => exact delimited_cons rfl _

/-- Skipping a gap in front of a mark. -/
theorem Gap.skipBlank_mark {gap : List UInt8} (h : Gap false gap) {b : UInt8}
    (hb : Token.isBlank b = false ∧ b ≠ Token.hash) (rest : List UInt8) (p : Position) :
    skipBlank ⟨gap ++ b :: rest, p⟩ = ⟨b :: rest, p.after gap⟩ :=
  @skipBlank_gap gap (b :: rest) h (settled_cons hb.1 hb.2) p

/-- An expression begins with an atom behind a gap. -/
theorem Expression.front {s : List UInt8} {t : Tree} : Expression s t →
    ∃ gap b tail, s = gap ++ b :: tail ∧ Gap false gap ∧ (Token.isWord b = true ∨ b = Token.quote)
  | .atom hgap hatom => by
    obtain ⟨b, tail, rfl, hb⟩ := hatom.front
    exact ⟨_, b, tail, rfl, hgap, hb⟩
  | .call hs _ _ => by
    obtain ⟨gap, b, tail, rfl, hgap, hb⟩ := hs.front
    exact ⟨gap, b, _, by rw [List.append_assoc, List.cons_append], hgap, hb⟩

/-- Behind an argument, a gap and a comma or the closing parenthesis follow. -/
theorem More.front {s : List UInt8} {ts : List Tree} (h : More s ts) :
    ∃ gap b tail, s = gap ++ b :: tail ∧ Gap false gap ∧ (b = Token.comma ∨ b = Token.closing) := by
  cases h with
  | close hgap => exact ⟨_, _, [], rfl, hgap, .inr rfl⟩
  | comma hgap _ _ => exact ⟨_, _, _, rfl, hgap, .inl rfl⟩

/-- What follows an argument goes on with no word and opens no argument list. -/
theorem More.follows {s : List UInt8} {ts : List Tree} (h : More s ts) (rest : List UInt8)
    (p : Position) : Delimited (s ++ rest) ∧
      (skipBlank ⟨s ++ rest, p⟩).rest.head? ≠ some Token.opening := by
  obtain ⟨gap, b, tail, rfl, hgap, hb⟩ := h.front
  have hmark : Token.isWord b = false ∧ b ≠ Token.opening ∧
      Token.isBlank b = false ∧ b ≠ Token.hash := by
    rcases hb with rfl | rfl <;> decide
  obtain ⟨hword, hopen, hsettled⟩ := hmark
  rw [List.append_assoc, List.cons_append]
  refine ⟨hgap.delimited (delimited_cons hword _), ?_⟩
  rw [hgap.skipBlank_mark hsettled]
  simpa using hopen

/-- A program is an expression with a gap behind it. -/
theorem Program.exists_expression {s : List UInt8} {t : Tree} (h : Program s t) :
    ∃ s' gap, s = s' ++ gap ∧ Expression s' t ∧ Gap true gap := by
  cases h with
  | expression hs hgap => exact ⟨_, _, rfl, hs, hgap⟩

end Grammar

namespace Parser

open Grammar

/-- An argument list goes on with the derivation of its operator. -/
theorem spans_call {e : Expr} (args : List Expr) {s inner : List UInt8} {c d : Cursor}
    (hs : Expression s e.tree) (hopen : c.skipBlank.rest.head? = some Token.opening)
    (hinner : Spans inner (c.skipBlank.advance 1) d)
    (hargs : Arguments inner (args.map Expr.tree)) :
    ∃ s', Spans s' c d ∧ Expression (s ++ s') (Expr.apply e args).tree := by
  obtain ⟨gap, hgap, hspans⟩ := spans_gap_mark hopen
  rw [← Expr.trees_eq_map] at hargs
  exact ⟨gap ++ Token.opening :: inner, by simpa using hspans.append hinner, .call hs hgap hargs⟩

mutual

/-- An expression that is read is derived from what is passed, up to a gap behind it. -/
theorem ReadsExpression.sound {c r : Cursor} {e : Expr} : ReadsExpression c e r →
    ∃ s gap, Spans (s ++ gap) c r ∧ Expression s e.tree ∧ Gap r.rest.isEmpty gap ∧
      r.skipBlank = r
  | .atom hatom hcalls => by
    obtain ⟨gap, hgapSpans, -, hgap⟩ := c.skipBlank_spec
    obtain ⟨s, hspans, hs⟩ := atom_sound hatom
    obtain ⟨b, s, rfl, -⟩ := hs.front
    rw [hspans.rest] at hgap
    obtain ⟨s', gap', hspans', hs', hrest⟩ := hcalls.sound (.atom hgap hs)
    refine ⟨_, gap', ?_, hs', hrest⟩
    simpa using (hgapSpans.append hspans).append hspans'

/-- Argument lists that are read go on with the derivation of their operator. -/
theorem ReadsCalls.sound {c r : Cursor} {e e' : Expr} {s : List UInt8} : ReadsCalls e c e' r →
    Expression s e.tree →
      ∃ s' gap, Spans (s' ++ gap) c r ∧ Expression (s ++ s') e'.tree ∧ Gap r.rest.isEmpty gap ∧
        r.skipBlank = r
  | .done _, hs => by
    obtain ⟨gap, hspans, -, hgap⟩ := c.skipBlank_spec
    exact ⟨[], gap, hspans, by simpa using hs, hgap, skipBlank_skipBlank c⟩
  | .empty hopen hclose hcalls, hs => by
    obtain ⟨gap, hgap, hinner⟩ := spans_gap_mark hclose
    obtain ⟨s₁, hspans, hs₁⟩ := spans_call [] hs hopen hinner (.none hgap)
    obtain ⟨s₂, gap', hspans', hs₂, hrest⟩ := hcalls.sound hs₁
    refine ⟨s₁ ++ s₂, gap', ?_, ?_, hrest⟩
    · simpa using hspans.append hspans'
    · simpa using hs₂
  | .call hopen _ hargs hcalls, hs => by
    obtain ⟨s, s', t, ts, hinner, hexpr, hmore, htrees⟩ := hargs.sound
    obtain ⟨s₁, hspans, hs₁⟩ := spans_call _ hs hopen hinner
      (by rw [htrees]; exact .some hexpr hmore)
    obtain ⟨s₂, gap, hspans', hs₂, hrest⟩ := hcalls.sound hs₁
    refine ⟨s₁ ++ s₂, gap, ?_, ?_, hrest⟩
    · simpa using hspans.append hspans'
    · simpa using hs₂

/-- Arguments that are read are derived from what is passed. -/
theorem ReadsArguments.sound {c r : Cursor} {done args : List Expr} :
    ReadsArguments done c args r →
      ∃ s s' t ts, Spans (s ++ s') c r ∧ Expression s t ∧ More s' ts ∧
        args.map Expr.tree = done.reverse.map Expr.tree ++ t :: ts
  | .comma (e := e) (d := d) hexpr hmark hargs => by
    obtain ⟨s, gap, hspans, hs, hgap, hskip⟩ := hexpr.sound
    obtain ⟨s₁, s₂, t, ts, hspans', hs₁, hs₂, htrees⟩ := hargs.sound
    rw [hskip] at hmark hspans'
    obtain ⟨rest, hrest⟩ := List.head?_eq_some_iff.mp hmark
    rw [hrest] at hgap
    refine ⟨s, gap ++ Token.comma :: (s₁ ++ s₂), e.tree, t :: ts, ?_, hs, .comma hgap hs₁ hs₂, ?_⟩
    · simpa using (hspans.append (spans_mark hmark)).append hspans'
    · simpa using htrees
  | .close (e := e) (d := d) hexpr hmark => by
    obtain ⟨s, gap, hspans, hs, hgap, hskip⟩ := hexpr.sound
    rw [hskip] at hmark
    obtain ⟨rest, hrest⟩ := List.head?_eq_some_iff.mp hmark
    rw [hrest] at hgap
    refine ⟨s, gap ++ [Token.closing], e.tree, [], ?_, hs, .close hgap, by simp⟩
    rw [hskip]
    simpa using hspans.append (spans_mark hmark)

end

mutual

/-- An expression of the grammar is read, whatever is read of the argument lists behind it. -/
theorem reads_of_expression {s : List UInt8} {t : Tree} : Expression s t →
    ∀ (rest : List UInt8) (p : Position), Delimited rest → ∃ e, e.tree = t ∧
      ∀ {e' r}, ReadsCalls e ⟨rest, p.after s⟩ e' r → ReadsExpression ⟨s ++ rest, p⟩ e' r
  | @Expression.atom gap s _ hgap hatom, rest, p, hrest => by
    obtain ⟨e, hread, htree⟩ := atom_complete hatom hrest (p.after gap)
    refine ⟨e, htree, fun hcalls => ?_⟩
    have hskip : skipBlank ⟨gap ++ s ++ rest, p⟩ = ⟨s ++ rest, p.after gap⟩ := by
      rw [List.append_assoc]
      exact skipBlank_gap hgap.mono (hatom.settled rest) p
    rw [Position.after_append] at hcalls
    exact .atom (hskip ▸ hread) hcalls
  | @Expression.call s gap args _ _ hs hgap hargs, rest, p, _ => by
    have hdelimited : Delimited (gap ++ Token.opening :: (args ++ rest)) :=
      hgap.delimited (delimited_cons rfl _)
    obtain ⟨e, htree, hreads⟩ := reads_of_expression hs _ p hdelimited
    obtain ⟨exprs, htrees, hcalls⟩ :=
      reads_of_arguments hargs rest (((p.after s).after gap).step Token.opening)
    refine ⟨.apply e exprs, by simp [Expr.tree, htree, htrees], fun h => ?_⟩
    have hskip := hgap.skipBlank_mark (b := Token.opening) (by decide) (args ++ rest) (p.after s)
    have hread := hreads (hcalls (by rw [hskip]; rfl) (by rw [hskip]; rfl) (by simpa using h))
    simpa using hread

/-- Arguments of the grammar are read, whatever is read of the argument lists behind them. -/
theorem reads_of_arguments {s : List UInt8} {ts : List Tree} : Arguments s ts →
    ∀ (rest : List UInt8) (p : Position), ∃ args : List Expr, args.map Expr.tree = ts ∧
      ∀ {c e e' r}, c.skipBlank.rest.head? = some Token.opening →
        c.skipBlank.advance 1 = ⟨s ++ rest, p⟩ →
        ReadsCalls (.apply e args) ⟨rest, p.after s⟩ e' r → ReadsCalls e c e' r
  | @Arguments.none gap hgap, rest, p => by
    refine ⟨[], rfl, fun hopen hinner hcalls => ?_⟩
    have hskip := hgap.skipBlank_mark (b := Token.closing) (by decide) rest p
    rw [List.append_assoc, List.singleton_append] at hinner
    refine .empty hopen (by rw [hinner, hskip]; rfl) ?_
    rw [hinner, hskip]
    simpa using hcalls
  | @Arguments.some s more _ _ hs hmore, rest, p => by
    obtain ⟨hdelimited, hopen'⟩ := hmore.follows rest (p.after s)
    obtain ⟨e, htree, hreads⟩ := reads_of_expression hs (more ++ rest) p hdelimited
    obtain ⟨args, htrees, hargs⟩ := reads_of_more hmore rest (p.after s)
    refine ⟨e :: args, by simp [htree, htrees], fun hopen hinner hcalls => ?_⟩
    rw [List.append_assoc] at hinner
    have hclose : (skipBlank ⟨s ++ (more ++ rest), p⟩).rest.head? ≠ some Token.closing := by
      obtain ⟨gap, b, tail, rfl, hgap, hb⟩ := hs.front
      obtain ⟨hblank, hhash, -, hne, -⟩ := not_mark hb
      rw [List.append_assoc, List.cons_append, hgap.skipBlank_mark ⟨hblank, hhash⟩]
      simpa using hne
    have hread := @hargs [] e ⟨s ++ (more ++ rest), p⟩ (hreads (.done hopen'))
    rw [Position.after_append] at hcalls
    exact .call hopen (hinner ▸ hclose) (hinner ▸ hread) hcalls

/-- What follows an argument in the grammar is read behind every argument. -/
theorem reads_of_more {s : List UInt8} {ts : List Tree} : More s ts →
    ∀ (rest : List UInt8) (p : Position), ∃ args : List Expr, args.map Expr.tree = ts ∧
      ∀ {done e c}, ReadsExpression c e (skipBlank ⟨s ++ rest, p⟩) →
        ReadsArguments done c (done.reverse ++ e :: args) ⟨rest, p.after s⟩
  | @More.close gap hgap, rest, p => by
    refine ⟨[], rfl, fun {done e c} hexpr => ?_⟩
    rw [List.append_assoc, List.singleton_append,
      hgap.skipBlank_mark (b := Token.closing) (by decide)] at hexpr
    have hsettled : skipBlank ⟨Token.closing :: rest, p.after gap⟩ = _ :=
      Gap.nil.skipBlank_mark (by decide) rest (p.after gap)
    have hread := @ReadsArguments.close done e c _ hexpr (by rw [hsettled]; rfl)
    rw [hsettled] at hread
    simpa using hread
  | @More.comma gap s more _ _ hgap hs hmore, rest, p => by
    set q := (p.after gap).step Token.comma with hq
    obtain ⟨hdelimited, hopen⟩ := hmore.follows rest (q.after s)
    obtain ⟨e', htree, hreads⟩ := reads_of_expression hs (more ++ rest) q hdelimited
    obtain ⟨args, htrees, hargs⟩ := reads_of_more hmore rest (q.after s)
    refine ⟨e' :: args, by simp [htree, htrees], fun {done e c} hexpr => ?_⟩
    rw [List.append_assoc, List.cons_append,
      hgap.skipBlank_mark (b := Token.comma) (by decide)] at hexpr
    have hsettled : skipBlank ⟨Token.comma :: (s ++ more ++ rest), p.after gap⟩ = _ :=
      Gap.nil.skipBlank_mark (by decide) _ (p.after gap)
    have hread := @hargs (e :: done) e' ⟨s ++ (more ++ rest), q⟩ (hreads (.done hopen))
    have hcomma := @ReadsArguments.comma done _ e c _ _ hexpr (by rw [hsettled]; rfl) (by
      rw [hsettled]
      rw [← List.append_assoc] at hread
      exact hread)
    simpa [hq] using hcomma

end

/-- An atom that is missing is a syntax error at the place where it is missing. -/
theorem atom_syntaxError {c : Cursor} {fault : Fault} (h : atom c = .error fault) :
    fault.place = some c.pos ∧ fault.cause.kind = .syntaxError := by
  rcases atom_eq_error h with ⟨-, rfl⟩ | ⟨body, -, -, rfl⟩ | ⟨hfinal, -⟩
  · exact ⟨rfl, rfl⟩
  · exact ⟨rfl, rfl⟩
  · exact ⟨hfinal.place, hfinal.kind⟩

mutual

/-- An expression that cannot be read is a syntax error at some place. -/
theorem FailsExpression.syntaxError {c : Cursor} {fault : Fault} : FailsExpression c fault →
    ∃ p, fault.place = some p ∧ fault.cause.kind = .syntaxError
  | .atom hatom => ⟨_, atom_syntaxError hatom⟩
  | .calls _ hcalls => hcalls.syntaxError

/-- Argument lists that cannot be read are a syntax error at some place. -/
theorem FailsCalls.syntaxError {e : Expr} {c : Cursor} {fault : Fault} : FailsCalls e c fault →
    ∃ p, fault.place = some p ∧ fault.cause.kind = .syntaxError
  | .empty _ _ hcalls => hcalls.syntaxError
  | .arguments _ _ hargs => hargs.syntaxError
  | .call _ _ _ hcalls => hcalls.syntaxError

/-- Arguments that cannot be read are a syntax error at some place. -/
theorem FailsArguments.syntaxError {done : List Expr} {c : Cursor} {fault : Fault} :
    FailsArguments done c fault →
      ∃ p, fault.place = some p ∧ fault.cause.kind = .syntaxError
  | .expression hexpr => hexpr.syntaxError
  | .comma _ _ hargs => hargs.syntaxError
  | .ends _ _ => ⟨_, rfl, rfl⟩
  | .other _ _ _ _ => ⟨_, rfl, rfl⟩

end

end Parser

open Grammar TinyScript.Parser

/-- A program that is read is derived by the grammar. -/
theorem program_of_parse {src : Text} {e : Expr} (h : parse src = .ok e) :
    Program src.bytes e.tree := by
  rcases reads_or_fails src with ⟨e', r, hreads⟩ | ⟨fault, hfails⟩
  · rw [parse_of_reads hreads] at h
    split_ifs at h with hend
    obtain rfl := Except.ok.inj h
    obtain ⟨s, gap, hspans, hs, hgap, hskip⟩ := hreads.sound
    rw [hskip] at hend
    have hbytes : src.bytes = s ++ gap ++ r.rest := hspans.rest
    rw [hend] at hgap hbytes
    rw [hbytes, List.append_nil]
    exact .expression hs hgap
  · rw [parse_of_fails hfails] at h
    exact nomatch h

/-- A program that the grammar derives is read as its tree. -/
theorem parse_of_program {src : Text} {t : Tree} (h : Program src.bytes t) :
    ∃ e, parse src = .ok e ∧ e.tree = t := by
  obtain ⟨s, gap, hbytes, hs, hgap⟩ := h.exists_expression
  have hskip : skipBlank ⟨gap, Position.start.after s⟩ =
      ⟨[], (Position.start.after s).after gap⟩ := by
    have hskip := @skipBlank_gap gap [] hgap settled_nil (Position.start.after s)
    rwa [List.append_nil] at hskip
  have hdelimited : Delimited gap := by
    have hdelimited : Delimited (gap ++ []) := hgap.delimited (fun _ h => nomatch h)
    rwa [List.append_nil] at hdelimited
  obtain ⟨e, htree, hreads⟩ := reads_of_expression hs gap Position.start hdelimited
  have hread := hreads (.done (by rw [hskip]; exact nofun))
  rw [← hbytes] at hread
  refine ⟨e, ?_, htree⟩
  rw [parse_of_reads hread, hskip]
  rfl

/-- Reading a program that the grammar does not derive ends in a syntax error at a place. -/
theorem syntaxError_of_parse {src : Text} {fault : Fault} (h : parse src = .error fault) :
    ∃ p, fault.place = some p ∧ fault.cause.kind = .syntaxError := by
  rcases reads_or_fails src with ⟨e, r, hreads⟩ | ⟨fault', hfails⟩
  · rw [parse_of_reads hreads] at h
    split_ifs at h
    obtain rfl := Except.error.inj h
    exact ⟨_, rfl, rfl⟩
  · rw [parse_of_fails hfails] at h
    obtain rfl := Except.error.inj h
    exact hfails.syntaxError

/-- The programs are exactly the texts that the grammar derives, and each is read as the one tree
that the grammar gives it; reading any other text ends in a syntax error at a place. -/
theorem parse_iff_program (src : Text) :
    (∀ t, (∃ e, parse src = .ok e ∧ e.tree = t) ↔ Program src.bytes t) ∧
      (∀ t t', Program src.bytes t → Program src.bytes t' → t = t') ∧
      ((∃ e, parse src = .ok e) ∨ ∃ fault p, parse src = .error fault ∧ fault.place = some p ∧
        fault.cause.kind = .syntaxError) := by
  refine ⟨fun t => ⟨?_, parse_of_program⟩, fun t t' h h' => ?_, ?_⟩
  · rintro ⟨e, he, rfl⟩
    exact program_of_parse he
  · obtain ⟨e, he, rfl⟩ := parse_of_program h
    obtain ⟨e', he', rfl⟩ := parse_of_program h'
    obtain rfl := Except.ok.inj (he.symm.trans he')
    rfl
  · cases hparse : parse src with
    | ok e => exact .inl ⟨e, rfl⟩
    | error fault =>
      obtain ⟨p, hplace, hkind⟩ := syntaxError_of_parse hparse
      exact .inr ⟨fault, p, rfl, hplace, hkind⟩

end TinyScript
