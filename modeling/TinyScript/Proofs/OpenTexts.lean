import TinyScript.Proofs.Continuation

/-!
# Texts that wait for more lines

A line feed behind a text adds nothing but white space. So a text that is not read up to its end is
still open with a line feed behind it, which is how it is kept until the next line comes.
-/

namespace TinyScript

/-- A text that cannot be read because it ends too early. -/
def Incomplete (src : Text) : Prop :=
  ∃ fault, parse src = .error fault ∧ fault.cause.isIncomplete = true

instance (src : Text) : Decidable (Incomplete src) :=
  match h : parse src with
  | .error fault => decidable_of_iff (fault.cause.isIncomplete = true) (by simp [Incomplete, h])
  | .ok e => isFalse (by simp [Incomplete, h])

open Cursor Grammar

namespace Cursor

/-- A gap at the end of a text goes on over a line feed. -/
theorem skipBlank_lineFeed_end {c : Cursor} (h : c.skipBlank.rest = []) :
    (c.extend [0x0A]).skipBlank.rest = [] := by
  obtain ⟨gap, hspans, -, hgap⟩ := c.skipBlank_spec
  rw [h] at hgap
  have hrest : c.rest = gap := by rw [hspans.rest, h, List.append_nil]
  have hskip := skipFrom_gap hgap.lineFeed settled_nil (by simp) c.pos
  rw [List.append_nil] at hskip
  rw [skipBlank, extend_rest, hrest, extend_pos, hskip]

/-- A line feed at the end of a text changes nothing about the next byte behind a gap. -/
theorem head?_skipBlank_lineFeed (c : Cursor) :
    (c.extend [0x0A]).skipBlank.rest.head? = c.skipBlank.rest.head? := by
  by_cases hend : c.skipBlank.rest = []
  · rw [skipBlank_lineFeed_end hend, hend]
  · exact head?_skipBlank_extend hend [0x0A]

end Cursor

namespace Parser

/-- A string that is not closed is not closed by a line feed. -/
theorem atom_unclosed_lineFeed {c : Cursor} {body : List UInt8}
    (hrest : c.rest = Token.quote :: body)
    (hquote : Token.quote ∉ body) :
    atom (c.extend [0x0A]) = .error (.placed .unterminatedString c.pos) := by
  rw [atom_of_quote (by rw [extend_rest, hrest]; rfl)]
  cases hstring : string? (c.extend [0x0A]) with
  | none => rfl
  | some result =>
    obtain ⟨body', -, -, hspans⟩ := string?_sound hstring
    have hbytes := hspans.rest
    rw [extend_rest, hrest, List.cons_append, List.cons_append, List.cons.injEq] at hbytes
    have hmem : Token.quote ∈ body ++ [0x0A] := by rw [hbytes.2]; simp
    exact absurd hmem (by simpa using ⟨hquote, by decide⟩)

mutual

/-- An expression up to the end of a text is read with a line feed behind it too. -/
theorem ReadsExpression.lineFeed_end {c r : Cursor} {e : Expr} :
    ReadsExpression c e r → r.skipBlank.rest = [] →
      ∃ r', ReadsExpression (c.extend [0x0A]) e r' ∧ r'.skipBlank.rest = []
  | .atom hatom hcalls, hend => by
    obtain ⟨r', hcalls', hend'⟩ := hcalls.lineFeed_end hend
    have hread := atom_lineFeed hatom []
    rw [← skipBlank_extend (atom_ne_nil hatom)] at hread
    exact ⟨r', .atom hread hcalls', hend'⟩

/-- Argument lists up to the end of a text are read with a line feed behind them too. -/
theorem ReadsCalls.lineFeed_end {c r : Cursor} {e e' : Expr} :
    ReadsCalls e c e' r → r.skipBlank.rest = [] →
      ∃ r', ReadsCalls e (c.extend [0x0A]) e' r' ∧ r'.skipBlank.rest = []
  | .done hopen, hend => by
    rw [skipBlank_skipBlank] at hend
    refine ⟨_, .done ?_, ?_⟩
    · rwa [head?_skipBlank_lineFeed]
    · rw [skipBlank_skipBlank, skipBlank_lineFeed_end hend]
  | .empty hopen hclose hcalls, hend => by
    obtain ⟨hinner, hopen'⟩ := advance_extend_mark hopen [0x0A]
    obtain ⟨hrest, hclose'⟩ := advance_extend_mark hclose [0x0A]
    obtain ⟨r', hread, hend'⟩ := hcalls.lineFeed_end hend
    rw [← hrest, ← hinner] at hread
    exact ⟨r', .empty hopen' (hinner ▸ hclose') hread, hend'⟩
  | .call hopen hclose hargs hcalls, hend => by
    obtain ⟨hinner, hopen'⟩ := advance_extend_mark hopen [0x0A]
    obtain ⟨r', hcalls', hend'⟩ := hcalls.lineFeed_end hend
    have hread := hargs.lineFeed []
    rw [← hinner] at hread
    refine ⟨r', .call hopen' ?_ hread hcalls', hend'⟩
    rw [hinner, head?_skipBlank_lineFeed]
    exact hclose

end

mutual

/-- An expression that is not read up to its end is open with a line feed behind it too. -/
theorem FailsExpression.stays_open {c : Cursor} {fault : Fault}
    (hopen : fault.cause.isIncomplete = true) : FailsExpression c fault →
      ∃ fault', FailsExpression (c.extend [0x0A]) fault' ∧ fault'.cause.isIncomplete = true
  | .atom hatom => by
    rcases atom_eq_error hatom with ⟨hend, -⟩ | ⟨body, hbody, hquote, -⟩ | ⟨hfault, -⟩
    · exact ⟨_, .atom (atom_end (skipBlank_lineFeed_end hend)), rfl⟩
    · have hskip := skipBlank_extend (hbody ▸ List.cons_ne_nil _ _) [0x0A]
      exact ⟨_, .atom (hskip ▸ atom_unclosed_lineFeed hbody hquote), rfl⟩
    · rw [hfault.complete] at hopen
      exact nomatch hopen
  | .calls hatom hcalls => by
    obtain ⟨fault', hfails, hopen'⟩ := hcalls.stays_open hopen
    have hread := atom_lineFeed hatom []
    rw [← skipBlank_extend (atom_ne_nil hatom)] at hread
    exact ⟨fault', .calls hread hfails, hopen'⟩

/-- Argument lists that are not read up to their end are open with a line feed behind them too. -/
theorem FailsCalls.stays_open {e : Expr} {c : Cursor} {fault : Fault}
    (hopen : fault.cause.isIncomplete = true) : FailsCalls e c fault →
      ∃ fault', FailsCalls e (c.extend [0x0A]) fault' ∧ fault'.cause.isIncomplete = true
  | .empty hmark hclose hcalls => by
    obtain ⟨fault', hfails, hopen'⟩ := hcalls.stays_open hopen
    obtain ⟨hinner, hmark'⟩ := advance_extend_mark hmark [0x0A]
    obtain ⟨hrest, hclose'⟩ := advance_extend_mark hclose [0x0A]
    rw [← hrest, ← hinner] at hfails
    exact ⟨fault', .empty hmark' (hinner ▸ hclose') hfails, hopen'⟩
  | .arguments hmark hclose hargs => by
    obtain ⟨fault', hfails, hopen'⟩ := hargs.stays_open hopen
    obtain ⟨hinner, hmark'⟩ := advance_extend_mark hmark [0x0A]
    have hclose' := head?_skipBlank_lineFeed (c.skipBlank.advance 1)
    rw [← hinner] at hfails hclose'
    exact ⟨fault', .arguments hmark' (hclose' ▸ hclose) hfails, hopen'⟩
  | .call hmark hclose hargs hcalls => by
    obtain ⟨fault', hfails, hopen'⟩ := hcalls.stays_open hopen
    obtain ⟨hinner, hmark'⟩ := advance_extend_mark hmark [0x0A]
    have hclose' := head?_skipBlank_lineFeed (c.skipBlank.advance 1)
    have hread := hargs.lineFeed []
    rw [← hinner] at hread hclose'
    exact ⟨fault', .call hmark' (hclose' ▸ hclose) hread hfails, hopen'⟩

/-- Arguments that are not read up to their end are open with a line feed behind them too. -/
theorem FailsArguments.stays_open {done : List Expr} {c : Cursor} {fault : Fault}
    (hopen : fault.cause.isIncomplete = true) : FailsArguments done c fault →
      ∃ fault', FailsArguments done (c.extend [0x0A]) fault' ∧ fault'.cause.isIncomplete = true
  | .expression hexpr => by
    obtain ⟨fault', hfails, hopen'⟩ := hexpr.stays_open hopen
    exact ⟨fault', .expression hfails, hopen'⟩
  | .comma hexpr hmark hargs => by
    obtain ⟨fault', hfails, hopen'⟩ := hargs.stays_open hopen
    obtain ⟨hinner, hmark'⟩ := advance_extend_mark hmark [0x0A]
    rw [← hinner] at hfails
    exact ⟨fault', .comma (hexpr.lineFeed [] (rest_ne_nil hmark)) hmark' hfails, hopen'⟩
  | .ends hexpr hend => by
    obtain ⟨r', hread, hend'⟩ := hexpr.lineFeed_end hend
    exact ⟨_, .ends hread hend', rfl⟩
  | .other _ _ _ _ => nomatch hopen

end

end Parser

open TinyScript.Parser

/-- A text that is open is still open with a line feed behind it. -/
theorem Incomplete.lineFeed {src : Text} (h : Incomplete src) : Incomplete (src ++ "\n") := by
  obtain ⟨fault, hparse, hopen⟩ := h
  rcases reads_or_fails src with ⟨e, r, hreads⟩ | ⟨fault', hfails⟩
  · rw [parse_of_reads hreads] at hparse
    split_ifs at hparse
    obtain rfl := Except.error.inj hparse
    exact nomatch hopen
  · rw [parse_of_fails hfails] at hparse
    obtain rfl := Except.error.inj hparse
    obtain ⟨fault'', hfails', hopen'⟩ := hfails.stays_open hopen
    have htext : Cursor.ofText (src ++ "\n") = (Cursor.ofText src).extend [0x0A] := by
      have := ofText_lineFeed src Text.empty
      rwa [Text.append_empty] at this
    rw [← htext] at hfails'
    exact ⟨fault'', parse_of_fails hfails', hopen'⟩

end TinyScript
