import TinyScript.Proofs.Derivations

/-!
# Going on with a text

A text that is no program is incomplete, or it is wrong at some place. An incomplete text becomes a
program when the right lines are put behind it: the grammar gives such lines for every state that
reading can be stuck in. A wrong text stays wrong at the same place whatever lines follow, since
nothing that was read in front of that place changes.
-/

namespace TinyScript

open Cursor Grammar

namespace Cursor

/-- Passing a mark does not depend on what is behind the text. -/
theorem advance_extend_mark {b : UInt8} {c : Cursor} (h : c.skipBlank.rest.head? = some b)
    (t : List UInt8) : (c.extend t).skipBlank.advance 1 = (c.skipBlank.advance 1).extend t ∧
      (c.extend t).skipBlank.rest.head? = some b := by
  obtain ⟨rest, hrest⟩ := List.head?_eq_some_iff.mp h
  have hne : c.skipBlank.rest ≠ [] := by rw [hrest]; exact List.cons_ne_nil b rest
  have hlength : 1 ≤ c.skipBlank.rest.length := by rw [hrest]; simp
  rw [skipBlank_extend hne]
  exact ⟨advance_extend hlength t, by rw [extend_rest, hrest]; rfl⟩

/-- Where a mark follows, the text has not ended. -/
theorem rest_ne_nil {b : UInt8} {c : Cursor} (h : c.skipBlank.rest.head? = some b) :
    c.rest ≠ [] := by
  have hlength := length_advance_lt h
  exact List.ne_nil_of_length_pos (by omega)

/-- The next byte behind a gap does not depend on what is behind the text. -/
theorem head?_skipBlank_extend {c : Cursor} (hne : c.skipBlank.rest ≠ []) (t : List UInt8) :
    (c.extend t).skipBlank.rest.head? = c.skipBlank.rest.head? := by
  rw [skipBlank_extend hne, extend_rest, List.head?_append_of_ne_nil _ hne]

end Cursor

namespace Parser

/-- Where an atom is read, the text has not ended. -/
theorem atom_ne_nil {c d : Cursor} {e : Expr} (h : atom c = .ok (e, d)) : c.rest ≠ [] := by
  have hlength := length_atom_lt h
  exact List.ne_nil_of_length_pos (by omega)

/-- No atom is read where the text has ended. -/
theorem atom_end {c : Cursor} (h : c.rest = []) :
    atom c = .error (.placed .unexpectedEnd c.pos) := by
  obtain ⟨rest, p⟩ := c
  obtain rfl : rest = [] := h
  rfl

/-- Where an expression is read, the text has not ended. -/
theorem ReadsExpression.ne_nil {c r : Cursor} {e : Expr} (h : ReadsExpression c e r) :
    c.skipBlank.rest ≠ [] := by
  cases h with
  | atom hatom _ => exact atom_ne_nil hatom

/-- Where arguments are read, the text has not ended. -/
theorem ReadsArguments.ne_nil {c r : Cursor} {done args : List Expr}
    (h : ReadsArguments done c args r) : c.skipBlank.rest ≠ [] := by
  cases h with
  | comma hexpr _ _ => exact hexpr.ne_nil
  | close hexpr _ => exact hexpr.ne_nil

mutual

/-- An expression in front of more text is read whatever lines follow that text. -/
theorem ReadsExpression.lineFeed {c r : Cursor} {e : Expr} (t : List UInt8) :
    ReadsExpression c e r → r.rest ≠ [] →
      ReadsExpression (c.extend (0x0A :: t)) e (r.extend (0x0A :: t))
  | .atom hatom hcalls, hne => by
    have hread := atom_lineFeed hatom t
    rw [← skipBlank_extend (atom_ne_nil hatom)] at hread
    exact .atom hread (hcalls.lineFeed t hne)

/-- Argument lists in front of more text are read whatever lines follow that text. -/
theorem ReadsCalls.lineFeed {c r : Cursor} {e e' : Expr} (t : List UInt8) :
    ReadsCalls e c e' r → r.rest ≠ [] →
      ReadsCalls e (c.extend (0x0A :: t)) e' (r.extend (0x0A :: t))
  | .done hopen, hne => by
    have hskip := skipBlank_extend hne (0x0A :: t)
    rw [← hskip]
    refine .done ?_
    rw [head?_skipBlank_extend hne]
    exact hopen
  | .empty hopen hclose hcalls, hne => by
    obtain ⟨hinner, hopen'⟩ := advance_extend_mark hopen (0x0A :: t)
    obtain ⟨hrest, hclose'⟩ := advance_extend_mark hclose (0x0A :: t)
    have hread := hcalls.lineFeed t hne
    rw [← hrest, ← hinner] at hread
    exact .empty hopen' (hinner ▸ hclose') hread
  | .call hopen hclose hargs hcalls, hne => by
    obtain ⟨hinner, hopen'⟩ := advance_extend_mark hopen (0x0A :: t)
    have hread := hargs.lineFeed t
    rw [← hinner] at hread
    refine .call hopen' ?_ hread (hcalls.lineFeed t hne)
    rw [hinner, head?_skipBlank_extend hargs.ne_nil]
    exact hclose

/-- Arguments up to the closing parenthesis are read whatever lines follow. -/
theorem ReadsArguments.lineFeed {c r : Cursor} {done args : List Expr} (t : List UInt8) :
    ReadsArguments done c args r →
      ReadsArguments done (c.extend (0x0A :: t)) args (r.extend (0x0A :: t))
  | .comma hexpr hmark hargs => by
    obtain ⟨hinner, hmark'⟩ := advance_extend_mark hmark (0x0A :: t)
    have hread := hargs.lineFeed t
    rw [← hinner] at hread
    exact .comma (hexpr.lineFeed t (rest_ne_nil hmark)) hmark' hread
  | .close hexpr hmark => by
    obtain ⟨hinner, hmark'⟩ := advance_extend_mark hmark (0x0A :: t)
    rw [← hinner]
    exact .close (hexpr.lineFeed t (rest_ne_nil hmark)) hmark'

end

/-- Where an expression cannot be read for good, the text has not ended. -/
theorem FailsExpression.ne_nil {c : Cursor} {fault : Fault}
    (hfinal : fault.cause.isIncomplete = false) (h : FailsExpression c fault) :
    c.skipBlank.rest ≠ [] := by
  cases h with
  | atom hatom =>
    intro hnil
    rw [atom_end hnil] at hatom
    obtain rfl := Except.error.inj hatom
    cases hfinal
  | calls hatom _ => exact atom_ne_nil hatom

/-- Where arguments cannot be read for good, the text has not ended. -/
theorem FailsArguments.ne_nil {done : List Expr} {c : Cursor} {fault : Fault}
    (hfinal : fault.cause.isIncomplete = false) (h : FailsArguments done c fault) :
    c.skipBlank.rest ≠ [] := by
  cases h with
  | expression hexpr => exact hexpr.ne_nil hfinal
  | comma hexpr _ _ => exact hexpr.ne_nil
  | ends hexpr _ => exact hexpr.ne_nil
  | other hexpr _ _ _ => exact hexpr.ne_nil

mutual

/-- An expression that cannot be read for good cannot be read whatever lines follow, and the place
is the same. -/
theorem FailsExpression.lineFeed {c : Cursor} {fault : Fault} (t : List UInt8)
    (hfinal : fault.cause.isIncomplete = false) : FailsExpression c fault →
      ∃ p fault', fault.Final p ∧ fault'.Final p ∧ FailsExpression (c.extend (0x0A :: t)) fault'
  | .atom hatom => by
    have hskip := skipBlank_extend ((FailsExpression.atom hatom).ne_nil hfinal) (0x0A :: t)
    rcases atom_eq_error hatom with ⟨-, rfl⟩ | ⟨body, -, -, rfl⟩ | ⟨hfault, hextend⟩
    · exact nomatch hfinal
    · exact nomatch hfinal
    · obtain ⟨fault', hatom', hfault'⟩ := hextend t
      exact ⟨_, fault', hfault, hfault', .atom (hskip ▸ hatom')⟩
  | .calls hatom hcalls => by
    obtain ⟨p, fault', hfault, hfault', hfails⟩ := hcalls.lineFeed t hfinal
    have hread := atom_lineFeed hatom t
    rw [← skipBlank_extend (atom_ne_nil hatom)] at hread
    exact ⟨p, fault', hfault, hfault', .calls hread hfails⟩

/-- Argument lists that cannot be read for good cannot be read whatever lines follow. -/
theorem FailsCalls.lineFeed {e : Expr} {c : Cursor} {fault : Fault} (t : List UInt8)
    (hfinal : fault.cause.isIncomplete = false) : FailsCalls e c fault →
      ∃ p fault', fault.Final p ∧ fault'.Final p ∧ FailsCalls e (c.extend (0x0A :: t)) fault'
  | .empty hopen hclose hcalls => by
    obtain ⟨p, fault', hfault, hfault', hfails⟩ := hcalls.lineFeed t hfinal
    obtain ⟨hinner, hopen'⟩ := advance_extend_mark hopen (0x0A :: t)
    obtain ⟨hrest, hclose'⟩ := advance_extend_mark hclose (0x0A :: t)
    rw [← hrest, ← hinner] at hfails
    exact ⟨p, fault', hfault, hfault', .empty hopen' (hinner ▸ hclose') hfails⟩
  | .arguments hopen hclose hargs => by
    obtain ⟨p, fault', hfault, hfault', hfails⟩ := hargs.lineFeed t hfinal
    obtain ⟨hinner, hopen'⟩ := advance_extend_mark hopen (0x0A :: t)
    have hclose' := head?_skipBlank_extend (hargs.ne_nil hfinal) (0x0A :: t)
    rw [← hinner] at hfails hclose'
    exact ⟨p, fault', hfault, hfault', .arguments hopen' (hclose' ▸ hclose) hfails⟩
  | .call hopen hclose hargs hcalls => by
    obtain ⟨p, fault', hfault, hfault', hfails⟩ := hcalls.lineFeed t hfinal
    obtain ⟨hinner, hopen'⟩ := advance_extend_mark hopen (0x0A :: t)
    have hclose' := head?_skipBlank_extend hargs.ne_nil (0x0A :: t)
    have hread := hargs.lineFeed t
    rw [← hinner] at hread hclose'
    exact ⟨p, fault', hfault, hfault', .call hopen' (hclose' ▸ hclose) hread hfails⟩

/-- Arguments that cannot be read for good cannot be read whatever lines follow. -/
theorem FailsArguments.lineFeed {done : List Expr} {c : Cursor} {fault : Fault} (t : List UInt8)
    (hfinal : fault.cause.isIncomplete = false) : FailsArguments done c fault →
      ∃ p fault', fault.Final p ∧ fault'.Final p ∧
        FailsArguments done (c.extend (0x0A :: t)) fault'
  | .expression hexpr => by
    obtain ⟨p, fault', hfault, hfault', hfails⟩ := hexpr.lineFeed t hfinal
    exact ⟨p, fault', hfault, hfault', .expression hfails⟩
  | .comma hexpr hmark hargs => by
    obtain ⟨p, fault', hfault, hfault', hfails⟩ := hargs.lineFeed t hfinal
    obtain ⟨hinner, hmark'⟩ := advance_extend_mark hmark (0x0A :: t)
    rw [← hinner] at hfails
    exact ⟨p, fault', hfault, hfault', .comma (hexpr.lineFeed t (rest_ne_nil hmark)) hmark' hfails⟩
  | .ends _ _ => nomatch hfinal
  | .other hexpr hmark hcomma hclose => by
    obtain ⟨-, hmark'⟩ := advance_extend_mark hmark (0x0A :: t)
    have hfails := @FailsArguments.other done _ _ _ _
      (hexpr.lineFeed t (rest_ne_nil hmark)) hmark' hcomma hclose
    have hne := List.ne_nil_of_mem (List.mem_of_head? hmark)
    rw [skipBlank_extend hne] at hfails
    exact ⟨_, _, ⟨rfl, rfl, rfl⟩, ⟨rfl, rfl, rfl⟩, hfails⟩

end

mutual

/-- Behind the text of an expression that is not read up to its end, some lines complete it. Where
the text ends any word will do, and a string that nothing closes ends on the next line. -/
theorem FailsExpression.completes {c : Cursor} {fault : Fault}
    (hopen : fault.cause.isIncomplete = true) : FailsExpression c fault →
      ∃ t tree, Expression (c.rest ++ 0x0A :: t) tree
  | .atom hatom => by
    obtain ⟨gap, hspans, -, hgap⟩ := c.skipBlank_spec
    rw [hspans.rest]
    rcases atom_eq_error hatom with ⟨hend, -⟩ | ⟨body, hbody, hquote, -⟩ | ⟨hfault, -⟩
    · rw [hend] at hgap ⊢
      have hword : Atom [0x78] _ := .word (List.cons_ne_nil _ _)
        (fun b hb => List.mem_singleton.mp hb ▸ rfl) (by rintro _ ⟨⟩; rfl)
      exact ⟨[0x78], _, by simpa using Expression.atom hgap.lineFeed hword⟩
    · rw [hbody] at hgap ⊢
      have hstring := @Atom.string (body ++ [0x0A]) (by simpa using ⟨hquote, by decide⟩)
      exact ⟨[Token.quote], _, by simpa using Expression.atom hgap hstring⟩
    · rw [hfault.complete] at hopen
      exact nomatch hopen
  | .calls hatom hcalls => by
    obtain ⟨gap, hgapSpans, -, hgap⟩ := c.skipBlank_spec
    obtain ⟨s, hspans, hs⟩ := atom_sound hatom
    rw [List.isEmpty_eq_false_iff.mpr (atom_ne_nil hatom)] at hgap
    obtain ⟨t, tree, htree⟩ := hcalls.completes hopen (.atom hgap hs)
    rw [hgapSpans.rest, hspans.rest]
    exact ⟨t, tree, by simpa using htree⟩

/-- Behind argument lists that are not read up to their end, some lines complete the call. -/
theorem FailsCalls.completes {e : Expr} {c : Cursor} {fault : Fault} {s : List UInt8}
    (hopen : fault.cause.isIncomplete = true) : FailsCalls e c fault → Expression s e.tree →
      ∃ t tree, Expression (s ++ (c.rest ++ 0x0A :: t)) tree
  | .empty hmark hclose hcalls, hs => by
    obtain ⟨gap, hgap, hinner⟩ := spans_gap_mark hclose
    obtain ⟨s₁, hspans, hs₁⟩ := spans_call [] hs hmark hinner (.none hgap)
    obtain ⟨t, tree, htree⟩ := hcalls.completes hopen hs₁
    exact ⟨t, tree, by simpa [hspans.rest] using htree⟩
  | .arguments hmark _ hargs, hs => by
    obtain ⟨gap, hgap, hspans⟩ := spans_gap_mark hmark
    obtain ⟨t, s₁, s₂, tree, trees, hbytes, hs₁, hs₂⟩ := hargs.completes hopen
    have hcall := Expression.call hs hgap (.some hs₁ hs₂)
    rw [← hbytes] at hcall
    exact ⟨t, _, by simpa [hspans.rest] using hcall⟩
  | .call hmark _ hargs hcalls, hs => by
    obtain ⟨s₁, s₂, tree, trees, hinner, hs₁, hs₂, htrees⟩ := hargs.sound
    obtain ⟨s', hspans, hs'⟩ := spans_call _ hs hmark hinner
      (by rw [htrees]; exact .some hs₁ hs₂)
    obtain ⟨t, tree, htree⟩ := hcalls.completes hopen hs'
    exact ⟨t, tree, by simpa [hspans.rest] using htree⟩

/-- Behind arguments that are not read up to their end, some lines complete the list. -/
theorem FailsArguments.completes {done : List Expr} {c : Cursor} {fault : Fault}
    (hopen : fault.cause.isIncomplete = true) : FailsArguments done c fault →
      ∃ t s s' tree trees, c.rest ++ 0x0A :: t = s ++ s' ∧ Expression s tree ∧ More s' trees
  | .expression hexpr => by
    obtain ⟨t, tree, htree⟩ := hexpr.completes hopen
    exact ⟨t ++ [Token.closing], _, [Token.closing], tree, [], by simp, htree, .close .nil⟩
  | .comma hexpr hmark hargs => by
    obtain ⟨s, gap, hspans, hs, hgap, hskip⟩ := hexpr.sound
    obtain ⟨t, s₁, s₂, tree, trees, hbytes, hs₁, hs₂⟩ := hargs.completes hopen
    rw [hskip] at hmark hbytes
    rw [List.isEmpty_eq_false_iff.mpr (List.ne_nil_of_mem (List.mem_of_head? hmark))] at hgap
    refine ⟨t, s, _, _, _, ?_, hs, .comma hgap hs₁ hs₂⟩
    rw [← hbytes, hspans.rest, (spans_mark hmark).rest]
    simp
  | .ends hexpr hend => by
    obtain ⟨s, gap, hspans, hs, hgap, hskip⟩ := hexpr.sound
    rw [hskip] at hend
    rw [hend] at hgap
    refine ⟨[Token.closing], s, _, _, _, ?_, hs, .close hgap.lineFeed⟩
    rw [hspans.rest, hend]
    simp
  | .other _ _ _ _ => nomatch hopen

end

end Parser

open TinyScript.Parser

/-- A text with a line feed and more text behind it. -/
theorem ofText_lineFeed (src t : Text) :
    Cursor.ofText (src ++ "\n" ++ t) = (Cursor.ofText src).extend (0x0A :: t.bytes) := by
  rw [ofText, ofText, extend, Text.bytes_append, Text.bytes_append, List.append_assoc]
  rfl

/-- An incomplete text is a program with the right lines behind it. -/
theorem exists_parse_of_incomplete {src : Text} {fault : Fault} (h : parse src = .error fault)
    (hopen : fault.cause.isIncomplete = true) : ∃ t e, parse (src ++ "\n" ++ t) = .ok e := by
  rcases reads_or_fails src with ⟨e, r, hreads⟩ | ⟨fault', hfails⟩
  · rw [parse_of_reads hreads] at h
    split_ifs at h
    obtain rfl := Except.error.inj h
    exact nomatch hopen
  · rw [parse_of_fails hfails] at h
    obtain rfl := Except.error.inj h
    obtain ⟨t, tree, htree⟩ := hfails.completes hopen
    have hbytes : (src ++ "\n" ++ Text.ofBytes t).bytes = src.bytes ++ 0x0A :: t ++ [] := by
      rw [Text.bytes_append, Text.bytes_append, List.append_assoc, List.append_nil]
      rfl
    have hprogram : Program (src.bytes ++ 0x0A :: t ++ []) tree := .expression htree .nil
    rw [← hbytes] at hprogram
    obtain ⟨e, he, -⟩ := parse_of_program hprogram
    exact ⟨Text.ofBytes t, e, he⟩

/-- A wrong text is wrong at the same place whatever lines follow. -/
theorem parse_lineFeed_of_final {src : Text} {fault : Fault} (h : parse src = .error fault)
    (hfinal : fault.cause.isIncomplete = false) (t : Text) :
    ∃ p fault', fault.Final p ∧ fault'.Final p ∧ parse (src ++ "\n" ++ t) = .error fault' := by
  rcases reads_or_fails src with ⟨e, r, hreads⟩ | ⟨fault', hfails⟩
  · rw [parse_of_reads hreads] at h
    split_ifs at h with hend
    obtain rfl := Except.error.inj h
    have hrest : r.rest ≠ [] := by
      obtain ⟨-, -, -, -, -, hskip⟩ := hreads.sound
      rwa [hskip] at hend
    have hread := hreads.lineFeed t.bytes hrest
    rw [← ofText_lineFeed] at hread
    have hfinal : (Fault.placed .trailingText r.skipBlank.pos).Final r.skipBlank.pos :=
      ⟨rfl, rfl, rfl⟩
    refine ⟨_, _, hfinal, hfinal, ?_⟩
    rw [parse_of_reads hread, skipBlank_extend hend]
    exact if_neg (by simp)
  · rw [parse_of_fails hfails] at h
    obtain rfl := Except.error.inj h
    obtain ⟨p, fault'', hfault, hfault'', hfails'⟩ := hfails.lineFeed t.bytes hfinal
    rw [← ofText_lineFeed] at hfails'
    exact ⟨p, fault'', hfault, hfault'', parse_of_fails hfails'⟩

/-- A text that is no program is incomplete exactly if some lines behind it make it a program; if it
is not incomplete, it is a syntax error at one place, whatever lines follow. -/
theorem incomplete_iff_exists_parse {src : Text} {fault : Fault} (h : parse src = .error fault) :
    (fault.cause.isIncomplete = true ↔ ∃ t e, parse (src ++ "\n" ++ t) = .ok e) ∧
      (fault.cause.isIncomplete = false → ∃ p, fault.Final p ∧
        ∀ t, ∃ fault', parse (src ++ "\n" ++ t) = .error fault' ∧ fault'.Final p) := by
  refine ⟨⟨exists_parse_of_incomplete h, ?_⟩, fun hfinal => ?_⟩
  · rintro ⟨t, e, he⟩
    by_contra hopen
    obtain ⟨p, fault', -, -, hfails⟩ := parse_lineFeed_of_final h (by simpa using hopen) t
    rw [he] at hfails
    exact nomatch hfails
  · obtain ⟨p, -, hfault, -, -⟩ := parse_lineFeed_of_final h hfinal Text.empty
    refine ⟨p, hfault, fun t => ?_⟩
    obtain ⟨p', fault', hfault', hfinal', hfails⟩ := parse_lineFeed_of_final h hfinal t
    obtain rfl := Option.some.inj (hfault.place.symm.trans hfault'.place)
    exact ⟨fault', hfails, hfinal'⟩

/-- A call that a comment cuts off is incomplete; two arguments without a comma between them are
wrong where the second one begins. -/
theorem incomplete_iff_exists_parse_call :
    (∃ t e, parse ("f(1, # one" ++ "\n" ++ t) = .ok e) ∧
      ∀ t, ∃ fault', parse ("f(1 2" ++ "\n" ++ t) = .error fault' ∧ fault'.Final ⟨1, 5⟩ := by
  have hopen : parse "f(1, # one" = .error (.placed .unexpectedEnd ⟨1, 11⟩) := rfl
  have hwrong : parse "f(1 2" = .error (.placed (.expectedSeparator false) ⟨1, 5⟩) := rfl
  refine ⟨(incomplete_iff_exists_parse hopen).1.mp rfl, ?_⟩
  obtain ⟨p, hplace, hfails⟩ := (incomplete_iff_exists_parse hwrong).2 rfl
  obtain rfl := Option.some.inj hplace.place
  exact hfails

end TinyScript
