import TinyScript.Proofs.Continuation
import TinyScript.Proofs.LeafPlaces

/-!
# Texts that are cut off

What is read up to a place does not depend on what is behind that place: on a text that is cut off
there or later, the reader comes to the same place. So where it fails, it fails for want of
something that stands there on no text, and a text that is cut off at that place lacks it just the
same.
-/

namespace TinyScript

open Cursor Grammar

/-- Whether bytes are settled is decided by the first of them, also in front of more. -/
theorem Grammar.Settled.of_append {rest t : List UInt8} (h : Settled (rest ++ t)) :
    Settled rest := by
  cases rest with
  | nil => exact settled_nil
  | cons b rest => exact h

namespace Cursor

/-- Bytes in front of a text that is cut off. -/
theorem Spans.cut {s v : List UInt8} {c d : Cursor} (h : Spans s c (d.extend v)) :
    ∃ c₀ : Cursor, c = c₀.extend v ∧ Spans s c₀ d := by
  refine ⟨⟨s ++ d.rest, c.pos⟩, ?_, rfl, h.pos⟩
  obtain ⟨bytes, p⟩ := c
  obtain rfl : bytes = s ++ (d.rest ++ v) := h.rest
  rw [extend, List.append_assoc]

/-- A gap in front of a text that is cut off. -/
theorem skipBlank_cut {c d : Cursor} {v : List UInt8} (h : c.skipBlank = d.extend v) :
    ∃ c₀ : Cursor, c = c₀.extend v ∧ c₀.skipBlank = d := by
  obtain ⟨gap, hspans, hsettled, hgap⟩ := c.skipBlank_spec
  rw [h] at hspans hsettled hgap
  obtain ⟨⟨bytes, p⟩, rfl, hspans₀⟩ := hspans.cut
  obtain rfl : bytes = gap ++ d.rest := hspans₀.rest
  have hgap₀ : Gap d.rest.isEmpty gap := by
    cases hd : (d.rest ++ v).isEmpty with
    | false =>
      rw [extend_rest, hd] at hgap
      exact hgap.mono
    | true =>
      rw [extend_rest, hd] at hgap
      rw [List.isEmpty_iff, List.append_eq_nil_iff] at hd
      rwa [hd.1]
  refine ⟨_, rfl, ?_⟩
  rw [skipBlank_gap hgap₀ hsettled.of_append, ← hspans₀.pos]

/-- A mark in front of a text that is cut off. -/
theorem mark_cut {b : UInt8} {c d : Cursor} {v : List UInt8}
    (hmark : c.skipBlank.rest.head? = some b) (h : c.skipBlank.advance 1 = d.extend v) :
    ∃ c₀ : Cursor, c = c₀.extend v ∧ c₀.skipBlank.rest.head? = some b ∧
      c₀.skipBlank.advance 1 = d := by
  have hspans := spans_mark hmark
  rw [h] at hspans
  obtain ⟨c₁, hc₁, hspans₁⟩ := hspans.cut
  obtain ⟨c₀, rfl, rfl⟩ := skipBlank_cut hc₁
  exact ⟨c₀, rfl, by rw [hspans₁.rest]; rfl, hspans₁.advance_eq⟩

end Cursor

namespace Parser

/-- An atom in front of a text that is cut off. -/
theorem atom_cut {c d : Cursor} {e : Expr} {v : List UInt8}
    (h : atom c = .ok (e, d.extend v)) : ∃ c₀ : Cursor, c = c₀.extend v ∧ atom c₀ = .ok (e, d) := by
  obtain ⟨text, hspans, hleaf⟩ := leaf_of_atom h
  obtain ⟨c₀, rfl, hspans₀⟩ := hspans.cut
  exact ⟨c₀, rfl, atom_of_leaf hspans₀ hleaf.of_append⟩

mutual

/-- An expression in front of a text that is cut off. -/
theorem ReadsExpression.cut {c r d : Cursor} {e : Expr} {v : List UInt8} :
    ReadsExpression c e r → r = d.extend v →
      ∃ c₀ : Cursor, c = c₀.extend v ∧ ReadsExpression c₀ e d
  | .atom hatom hcalls, hr => by
    obtain ⟨d₀, rfl, hcalls₀⟩ := hcalls.cut hr
    obtain ⟨c₁, hc₁, hatom₀⟩ := atom_cut hatom
    obtain ⟨c₀, rfl, rfl⟩ := skipBlank_cut hc₁
    exact ⟨c₀, rfl, .atom hatom₀ hcalls₀⟩

/-- Argument lists in front of a text that is cut off: a list that were closed at once on the text
cut off would be closed on the whole text. -/
theorem ReadsCalls.cut {c r d : Cursor} {e e' : Expr} {v : List UInt8} :
    ReadsCalls e c e' r → r = d.extend v → ∃ c₀ : Cursor, c = c₀.extend v ∧ ReadsCalls e c₀ e' d
  | .done hopen, hr => by
    obtain ⟨c₀, rfl, rfl⟩ := skipBlank_cut hr
    refine ⟨c₀, rfl, .done fun hopen₀ => hopen ?_⟩
    exact (advance_extend_mark hopen₀ v).2
  | .empty hopen hclose hcalls, hr => by
    obtain ⟨d₂, hd₂, hcalls₀⟩ := hcalls.cut hr
    obtain ⟨d₁, hd₁, hclose₀, rfl⟩ := mark_cut hclose hd₂
    obtain ⟨c₀, rfl, hopen₀, rfl⟩ := mark_cut hopen hd₁
    exact ⟨c₀, rfl, .empty hopen₀ hclose₀ hcalls₀⟩
  | .call hopen hclose hargs hcalls, hr => by
    obtain ⟨d₂, hd₂, hcalls₀⟩ := hcalls.cut hr
    obtain ⟨d₁, hd₁, hargs₀⟩ := hargs.cut hd₂
    obtain ⟨c₀, rfl, hopen₀, rfl⟩ := mark_cut hopen hd₁
    refine ⟨c₀, rfl, .call hopen₀ (fun hclose₀ => hclose ?_) hargs₀ hcalls₀⟩
    rw [hd₁]
    exact (advance_extend_mark hclose₀ v).2

/-- Arguments in front of a text that is cut off. -/
theorem ReadsArguments.cut {c r d : Cursor} {done args : List Expr} {v : List UInt8} :
    ReadsArguments done c args r → r = d.extend v →
      ∃ c₀ : Cursor, c = c₀.extend v ∧ ReadsArguments done c₀ args d
  | .comma hexpr hmark hargs, hr => by
    obtain ⟨d₂, hd₂, hargs₀⟩ := hargs.cut hr
    obtain ⟨d₁, hd₁, hmark₀, rfl⟩ := mark_cut hmark hd₂
    obtain ⟨c₀, rfl, hexpr₀⟩ := hexpr.cut hd₁
    exact ⟨c₀, rfl, .comma hexpr₀ hmark₀ hargs₀⟩
  | .close hexpr hmark, hr => by
    obtain ⟨d₁, hd₁, hmark₀, rfl⟩ := mark_cut hmark hr
    obtain ⟨c₀, rfl, hexpr₀⟩ := hexpr.cut hd₁
    exact ⟨c₀, rfl, .close hexpr₀ hmark₀⟩

end

/-- What the reader may fail for want of: an expression, or a comma or closing parenthesis. -/
inductive Want where
  | expression
  | separator

/-- Something wanted does not stand at a cursor, which gives a fault. -/
inductive Misses : Want → Cursor → Fault → Prop where
  | expression {c : Cursor} {fault : Fault} (hskip : c.skipBlank = c)
      (hatom : atom c = .error fault) : Misses .expression c fault
  | separator {c : Cursor} (hskip : c.skipBlank = c)
      (hcomma : c.rest.head? ≠ some Token.comma) (hclose : c.rest.head? ≠ some Token.closing) :
      Misses .separator c (.placed (.expectedSeparator c.rest.isEmpty) c.pos)

section Misses

variable {want : Want} {c : Cursor} {fault : Fault}

/-- Where something wanted is missing, no blanks are left to skip. -/
theorem Misses.skipBlank_eq (h : Misses want c fault) : c.skipBlank = c := by
  cases h with
  | expression hskip _ => exact hskip
  | separator hskip _ _ => exact hskip

/-- What is missing is missing at that place. -/
theorem Misses.place (h : Misses want c fault) : fault.place = some c.pos := by
  cases h with
  | expression _ hatom =>
    rcases atom_eq_error hatom with ⟨-, rfl⟩ | ⟨-, -, -, rfl⟩ | ⟨hfinal, -⟩
    · rfl
    · rfl
    · exact hfinal.place
  | separator _ _ _ => rfl

/-- Where the text ends, whatever is wanted is missing, and the text is incomplete. -/
theorem exists_misses_end (want : Want) (p : Position) :
    ∃ fault, Misses want ⟨[], p⟩ fault ∧ fault.cause.isIncomplete = true := by
  cases want with
  | expression => exact ⟨_, .expression rfl rfl, rfl⟩
  | separator => exact ⟨_, .separator rfl nofun nofun, rfl⟩

/-- Where something is missing and the text goes on, there is a token to blame: a string that
nothing closes, or a token with which it is missing whatever follows. -/
theorem Misses.blame (h : Misses want c fault) (hne : c.rest ≠ []) :
    ∃ text rest, c.rest = text ++ rest ∧ Lexeme text rest ∧
      ((∃ body, text = Token.quote :: body ∧ Token.quote ∉ body ∧
          fault.cause = .unterminatedString) ∨
        ∃ fault', Misses want ⟨text, c.pos⟩ fault' ∧ fault'.Final c.pos) := by
  have hsettled : Settled c.rest := by
    obtain ⟨-, -, hsettled, -⟩ := c.skipBlank_spec
    rwa [h.skipBlank_eq] at hsettled
  have halone {text rest : List UInt8} (hrest : c.rest = text ++ rest) :
      skipBlank ⟨text, c.pos⟩ = ⟨text, c.pos⟩ := by
    rw [hrest] at hsettled
    exact skipBlank_gap .nil hsettled.of_append c.pos
  cases h with
  | expression _ hatom =>
    obtain ⟨text, rest, hrest, htext, hblame⟩ := atom_error_lexeme hatom hsettled hne
    refine ⟨text, rest, hrest, htext, ?_⟩
    rcases hblame with ⟨body, rfl, hbody, rfl⟩ | ⟨-, fault', hatom', hfinal⟩
    · exact .inl ⟨body, rfl, hbody, rfl⟩
    · exact .inr ⟨fault', .expression (halone hrest) hatom', hfinal⟩
  | separator _ hcomma hclose =>
    obtain ⟨text, rest, hrest, htext⟩ := exists_lexeme hsettled hne
    obtain ⟨b, tail, rfl, -⟩ := htext.front
    rw [hrest] at hcomma hclose
    exact ⟨_, rest, hrest, htext, .inr ⟨_, .separator (halone hrest) hcomma hclose, rfl, rfl, rfl⟩⟩

end Misses

/-- Behind an expression in a list, a separator is missing. -/
theorem fails_of_misses {done : List Expr} {e : Expr} {c d : Cursor} {fault : Fault}
    (hexpr : ReadsExpression c e d) (h : Misses .separator d.skipBlank fault) :
    FailsArguments done c fault := by
  cases h with
  | separator _ hcomma hclose =>
    cases hrest : d.skipBlank.rest with
    | nil => exact .ends hexpr hrest
    | cons b rest =>
      rw [hrest] at hcomma hclose
      exact .other hexpr (by rw [hrest]; rfl) (by simpa using hcomma) (by simpa using hclose)

/-- What comes from the first cursor to the second one fails there for want of something, and on
a text that is cut off behind the second cursor it fails for want of the same. -/
def Cuts (Fails : Cursor → Fault → Prop) (want : Want) (c d : Cursor) : Prop :=
  ∀ d₀ v fault, d = extend d₀ v → Misses want d₀ fault →
    ∃ c₀ : Cursor, c = c₀.extend v ∧ Fails c₀ fault

/-- Reading fails at a cursor behind the leaves shown so far. -/
def Stops (src : Text) (start : Cursor) (Fails : Cursor → Fault → Prop) (c : Cursor)
    (fault : Fault) : Prop :=
  ∃ want d leaves, Misses want d fault ∧ Shows src start leaves d ∧ Cuts Fails want c d

/-- Reading stops behind something if it stops at the rest. -/
theorem Stops.behind {src : Text} {start start' c c' : Cursor} {fault : Fault}
    {Fails Fails' : Cursor → Fault → Prop} (h : Stops src start' Fails' c' fault)
    (hshows : ∀ leaves d, Shows src start' leaves d → ∃ leaves', Shows src start leaves' d)
    (hcut : ∀ d₀ v fault, c' = extend d₀ v → Fails' d₀ fault →
      ∃ c₀ : Cursor, c = c₀.extend v ∧ Fails c₀ fault) :
    Stops src start Fails c fault := by
  obtain ⟨want, d, leaves, hmiss, hleaves, hcuts⟩ := h
  obtain ⟨leaves', hleaves'⟩ := hshows leaves d hleaves
  refine ⟨want, d, leaves', hmiss, hleaves', fun d₀ v fault hd hmiss₀ => ?_⟩
  obtain ⟨c₁, hc₁, hfails⟩ := hcuts d₀ v fault hd hmiss₀
  exact hcut c₁ v fault hc₁ hfails

/-- Reading stops where a separator is missing. -/
theorem stops_separator (src : Text) {done : List Expr} {e : Expr} {c d : Cursor} {fault : Fault}
    (hexpr : ReadsExpression c e d) (h : Misses .separator d.skipBlank fault) :
    Stops src c (FailsArguments done) c fault := by
  refine ⟨_, _, _, h, (hexpr.shows src).skipBlank, fun d₀ v fault' hd hmiss => ?_⟩
  obtain ⟨d₁, hd₁, rfl⟩ := skipBlank_cut hd
  obtain ⟨c₀, rfl, hexpr₀⟩ := hexpr.cut hd₁
  exact ⟨c₀, rfl, fails_of_misses hexpr₀ hmiss⟩

mutual

/-- Where an expression is not read, reading stops. -/
theorem FailsExpression.stops (src : Text) {c : Cursor} {fault : Fault} :
    FailsExpression c fault → Stops src c FailsExpression c fault
  | .atom hatom => by
    refine ⟨.expression, _, _, .expression (skipBlank_skipBlank c) hatom,
      (Shows.refl src c).skipBlank, fun d₀ v fault' hd hmiss => ?_⟩
    obtain ⟨c₀, rfl, rfl⟩ := skipBlank_cut hd
    cases hmiss with
    | expression _ hatom₀ => exact ⟨c₀, rfl, .atom hatom₀⟩
  | .calls hatom hcalls =>
    (hcalls.stops (.atom hatom)).behind (fun leaves _ h => ⟨leaves, h⟩)
      fun d₀ v fault' hd hfails => by
        subst hd
        obtain ⟨c₁, hc₁, hatom₀⟩ := atom_cut hatom
        obtain ⟨c₀, rfl, rfl⟩ := skipBlank_cut hc₁
        exact ⟨c₀, rfl, .calls hatom₀ hfails⟩

/-- Where argument lists are not read, reading stops behind the leaves of the operator. -/
theorem FailsCalls.stops {src : Text} {start c : Cursor} {e : Expr} {fault : Fault} :
    FailsCalls e c fault → Shows src start e.leaves c → Stops src start (FailsCalls e) c fault
  | .empty hopen hclose hcalls, h => by
    have hcall := h.append_mark hopen (.inl rfl)
      ((Shows.refl src _).append_mark hclose (.inr (.inl rfl)) (.refl src _))
    refine (hcalls.stops (by rwa [Expr.leaves_apply])).behind (fun leaves _ h => ⟨leaves, h⟩)
      fun d₀ v fault' hd hfails => ?_
    obtain ⟨d₁, hd₁, hclose₀, rfl⟩ := mark_cut hclose hd
    obtain ⟨c₀, rfl, hopen₀, rfl⟩ := mark_cut hopen hd₁
    exact ⟨c₀, rfl, .empty hopen₀ hclose₀ hfails⟩
  | .arguments hopen hclose hargs, h => by
    refine (hargs.stops src).behind (fun leaves d hleaves =>
      ⟨_, h.append_mark hopen (.inl rfl) hleaves⟩) fun d₀ v fault' hd hfails => ?_
    obtain ⟨c₀, rfl, hopen₀, rfl⟩ := mark_cut hopen hd
    refine ⟨c₀, rfl, .arguments hopen₀ (fun hclose₀ => hclose ?_) hfails⟩
    rw [hd]
    exact (advance_extend_mark hclose₀ v).2
  | .call hopen hclose hargs hcalls, h => by
    obtain ⟨new, rfl, hnew⟩ := hargs.shows src
    have hcall := h.append_mark hopen (.inl rfl) hnew
    refine (hcalls.stops (by rwa [Expr.leaves_apply])).behind (fun leaves _ h => ⟨leaves, h⟩)
      fun d₀ v fault' hd hfails => ?_
    obtain ⟨d₁, hd₁, hargs₀⟩ := hargs.cut hd
    obtain ⟨c₀, rfl, hopen₀, rfl⟩ := mark_cut hopen hd₁
    refine ⟨c₀, rfl, .call hopen₀ (fun hclose₀ => hclose ?_) hargs₀ hfails⟩
    rw [hd₁]
    exact (advance_extend_mark hclose₀ v).2

/-- Where arguments are not read, reading stops. -/
theorem FailsArguments.stops (src : Text) {c : Cursor} {done : List Expr} {fault : Fault} :
    FailsArguments done c fault → Stops src c (FailsArguments done) c fault
  | .expression hexpr =>
    (hexpr.stops src).behind (fun leaves _ h => ⟨leaves, h⟩)
      fun d₀ _ _ hd hfails => ⟨d₀, hd, .expression hfails⟩
  | .comma hexpr hmark hargs =>
    (hargs.stops src).behind
      (fun _ _ hleaves => ⟨_, (hexpr.shows src).append_mark hmark (.inr (.inr rfl)) hleaves⟩)
      fun d₀ v fault' hd hfails => by
        obtain ⟨d₁, hd₁, hmark₀, rfl⟩ := mark_cut hmark hd
        obtain ⟨c₀, rfl, hexpr₀⟩ := hexpr.cut hd₁
        exact ⟨c₀, rfl, .comma hexpr₀ hmark₀ hfails⟩
  | .ends (d := d) hexpr hend => by
    have hmiss : Misses .separator d.skipBlank _ :=
      .separator (skipBlank_skipBlank d) (by simp [hend]) (by simp [hend])
    rw [hend] at hmiss
    exact stops_separator src hexpr hmiss
  | .other (d := d) hexpr hmark hcomma hclose => by
    have hmiss : Misses .separator d.skipBlank _ :=
      .separator (skipBlank_skipBlank d) (by simpa [hmark] using hcomma)
        (by simpa [hmark] using hclose)
    rw [List.isEmpty_eq_false_iff.mpr (List.ne_nil_of_mem (List.mem_of_head? hmark))] at hmiss
    exact stops_separator src hexpr hmiss

end

end Parser

end TinyScript
