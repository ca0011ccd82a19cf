import TinyScript.Proofs.CutTexts
import TinyScript.Proofs.Places

/-!
# Places of programs and of their faults

Every node of a program has the place where the token of its leftmost leaf begins. The place of a
syntax error is that of the offending token or of the end of the text: up to there the text can be
completed to a program, and with that token it cannot, whatever follows.
-/

namespace TinyScript

open Cursor Grammar TinyScript.Parser

namespace Expr

/-- An expression begins where its leftmost leaf begins. -/
theorem head?_leaves (e : Expr) : ∃ leaf, e.leaves.head? = some leaf ∧ leaf.pos = e.pos := by
  cases e with
  | number x p => exact ⟨number x p, rfl, rfl⟩
  | string s p => exact ⟨string s p, rfl, rfl⟩
  | word name p => exact ⟨word name p, rfl, rfl⟩
  | apply operator args =>
    obtain ⟨leaf, hleaf, hpos⟩ := operator.head?_leaves
    refine ⟨leaf, ?_, hpos⟩
    rw [leaves_apply, List.head?_append, hleaf]
    rfl

/-- The leaves of a part are leaves of the whole. -/
theorem inherited_leaves (e : Expr) :
    Inherited fun part => ∀ leaf ∈ part.leaves, leaf ∈ e.leaves where
  operator op args h leaf hleaf := h leaf (by
    rw [leaves_apply]
    exact List.mem_append_left _ hleaf)
  argument op args h arg harg leaf hleaf := h leaf (by
    rw [leaves_apply]
    exact List.mem_append_right _ (List.mem_flatMap.mpr ⟨arg, harg, hleaf⟩))

end Expr

/-- Every leaf among those of some tokens is the leaf of one of them. -/
theorem exists_token_of_mem {src : Text} {leaves : List Expr} {tokens : List (Nat × List UInt8)}
    (h : List.Forall₂ (LeafAt src) leaves (atoms tokens)) {leaf : Expr} (hleaf : leaf ∈ leaves) :
    ∃ token ∈ tokens, LeafAt src leaf token := by
  obtain ⟨i, rfl⟩ := List.get_of_mem hleaf
  have hi : i < (atoms tokens).length := h.length_eq ▸ i.isLt
  exact ⟨_, List.mem_of_mem_filter (List.get_mem _ ⟨i, hi⟩), h.get i.isLt hi⟩

/-- The place of every part of an expression is that of the token of its leftmost leaf. -/
theorem exists_token_of_part {src : Text} {e part : Expr} {tokens : List (Nat × List UInt8)}
    (h : List.Forall₂ (LeafAt src) e.leaves (atoms tokens)) (hpart : part.Part e) :
    ∃ leaf, part.leaves.head? = some leaf ∧
      ∃ token ∈ tokens, LeafAt src leaf token ∧ part.pos = src.positionAt token.1 := by
  obtain ⟨leaf, hleaf, hpos⟩ := part.head?_leaves
  have hmem := (Expr.inherited_leaves e).part hpart (fun _ h => h) leaf (List.mem_of_head? hleaf)
  obtain ⟨token, htoken, hat⟩ := exists_token_of_mem h hmem
  exact ⟨leaf, hleaf, token, htoken, hat, hpos.symm.trans hat.pos⟩

/-- An offset is where a fault is: it has the place of the fault, the text in front of it can be
completed to a program, and the text ends there or has a token there that is to blame. That is a
string that nothing closes, or a token behind which no lines make the text a program. -/
structure Offends (src : Text) (tokens : List (Nat × List UInt8)) (fault : Fault)
    (offset : Nat) : Prop where
  le : offset ≤ src.size
  place : fault.place = some (src.positionAt offset)
  viable : ∃ t e, parse (src.take offset ++ t) = .ok e
  blame : offset = src.size ∨ ∃ token, (offset, token) ∈ tokens ∧
    ((∃ body, token = Token.quote :: body ∧ Token.quote ∉ body ∧
        fault.cause = .unterminatedString) ∨
      ∀ t, ∃ fault', parse (src.take (offset + token.length) ++ "\n" ++ t) = .error fault' ∧
        fault'.place = fault.place)

/-- A text that is cut off where a cursor stands. -/
theorem ofText_take {src : Text} {offset : Nat} {d : Cursor} (h : Stands src offset d) :
    ofText src = (ofText (src.take offset)).extend d.rest := by
  rw [ofText, ofText, extend, h.rest, Text.take, Text.bytes_cut, List.drop_zero,
    List.take_append_drop]

/-- Cursors that are the same with the same bytes behind them are the same. -/
theorem extend_inj {c d : Cursor} {v : List UInt8} (h : c.extend v = d.extend v) : c = d := by
  obtain ⟨hrest, hpos⟩ := Cursor.mk.inj h
  obtain ⟨bytes, p⟩ := c
  obtain rfl := List.append_cancel_right hrest
  obtain rfl : p = d.pos := hpos
  rfl

/-- Where reading stops, there is an offence: the text in front can be completed, and a token there
is to blame. Cut off behind that token the text is wrong for good, so it is wrong with any lines
behind it. -/
theorem offends_of_stop {src : Text} {fault : Fault} {d : Cursor} {leaves : List Expr}
    (hshows : Shows src (ofText src) leaves d) (hplace : fault.place = some d.pos)
    (hviable : ∀ s : Text, ofText src = (ofText s).extend d.rest →
      ∃ t e, parse (s ++ t) = .ok e)
    (hblame : d.rest ≠ [] → ∃ text rest, d.rest = text ++ rest ∧ Lexeme text rest ∧
      ((∃ body, text = Token.quote :: body ∧ Token.quote ∉ body ∧
          fault.cause = .unterminatedString) ∨
        ∀ s : Text, ofText src = (ofText s).extend rest →
          ∃ fault', parse s = .error fault' ∧ fault'.Final d.pos)) :
    ∃ tokens offset, Tokens 0 src.bytes tokens ∧ Offends src tokens fault offset := by
  obtain ⟨offset, tokens, hstands, htokens, -⟩ := hshows.tokens 0 (stands_ofText src)
  have hviable := hviable (src.take offset) (ofText_take hstands)
  rw [hstands.pos] at hplace
  by_cases hend : d.rest = []
  · obtain ⟨more, hmore⟩ := exists_tokens offset d.rest
    have hsize : src.size ≤ offset := by
      rw [Text.size_eq_length, ← List.drop_eq_nil_iff, ← hstands.rest, hend]
    exact ⟨_, offset, htokens more hmore, hstands.le, hplace, hviable,
      .inl (Nat.le_antisymm hstands.le hsize)⟩
  · obtain ⟨text, rest, hrest, htext, hblame⟩ := hblame hend
    obtain ⟨more, hmore⟩ := exists_tokens (offset + text.length) rest
    have htoken : Tokens offset d.rest ((offset, text) :: more) := by
      rw [hrest]
      exact @Tokens.token offset [] text rest more .nil htext hmore
    refine ⟨_, offset, htokens _ htoken, hstands.le, hplace, hviable, .inr ⟨text, by simp, ?_⟩⟩
    refine hblame.imp_right fun hfinal t => ?_
    have hspans : Spans text d ⟨rest, d.pos.after text⟩ := ⟨hrest, rfl⟩
    obtain ⟨fault', hparse, hfinal⟩ := hfinal _ (ofText_take (hstands.spans hspans))
    obtain ⟨p, fault'', hfault', hfault'', hfails⟩ :=
      parse_lineFeed_of_final hparse hfinal.complete t
    refine ⟨fault'', hfails, ?_⟩
    rw [hfault''.place, ← hfault'.place, hfinal.place, hplace, hstands.pos]

/-- A text of which no expression is read has an offence. -/
theorem offends_of_fails {src : Text} {fault : Fault} (h : FailsExpression (ofText src) fault) :
    ∃ tokens offset, Tokens 0 src.bytes tokens ∧ Offends src tokens fault offset := by
  obtain ⟨want, d, leaves, hmiss, hshows, hcuts⟩ := h.stops src
  have hparse {d₀ : Cursor} {v : List UInt8} {fault' : Fault} (hd : d = d₀.extend v)
      (hmiss₀ : Misses want d₀ fault') {s : Text} (hs : ofText src = (ofText s).extend v) :
      parse s = .error fault' := by
    obtain ⟨c₀, hc₀, hfails⟩ := hcuts d₀ v fault' hd hmiss₀
    obtain rfl := extend_inj (hs.symm.trans hc₀)
    exact parse_of_fails hfails
  refine offends_of_stop hshows hmiss.place (fun s hs => ?_) fun hne => ?_
  · obtain ⟨fault', hmiss', hopen⟩ := exists_misses_end want d.pos
    obtain ⟨t, e, he⟩ := exists_parse_of_incomplete (hparse rfl hmiss' hs) hopen
    rw [Text.append_assoc] at he
    exact ⟨_, e, he⟩
  · obtain ⟨text, rest, hrest, htext, hblame⟩ := hmiss.blame hne
    refine ⟨text, rest, hrest, htext, hblame.imp_right ?_⟩
    rintro ⟨fault', hmiss', hfinal⟩ s hs
    have hd : d = extend ⟨text, d.pos⟩ rest := by rw [extend, ← hrest]
    exact ⟨fault', hparse hd hmiss' hs, hfinal⟩

/-- A text that goes on behind an expression has an offence. -/
theorem offends_of_trailing {src : Text} {e : Expr} {r : Cursor}
    (h : ReadsExpression (ofText src) e r) (hne : r.skipBlank.rest ≠ []) :
    ∃ tokens offset, Tokens 0 src.bytes tokens ∧
      Offends src tokens (.placed .trailingText r.skipBlank.pos) offset := by
  have hparse {d₀ : Cursor} {v : List UInt8} (hd : r.skipBlank = d₀.extend v) {s : Text}
      (hs : ofText src = (ofText s).extend v) :
      parse s = if d₀.rest = [] then .ok e else .error (.placed .trailingText d₀.pos) := by
    obtain ⟨r₀, hr₀, rfl⟩ := skipBlank_cut hd
    obtain ⟨c₀, hc₀, hreads⟩ := h.cut hr₀
    obtain rfl := extend_inj (hs.symm.trans hc₀)
    exact parse_of_reads hreads
  obtain ⟨-, -, hsettled, -⟩ := r.skipBlank_spec
  refine offends_of_stop (h.shows src).skipBlank rfl (fun s hs => ?_) fun _ => ?_
  · have hs : parse s = .ok e := @hparse ⟨[], r.skipBlank.pos⟩ _ rfl s hs
    exact ⟨Text.empty, e, by rwa [Text.append_empty]⟩
  · obtain ⟨text, rest, hrest, htext⟩ := exists_lexeme hsettled hne
    obtain ⟨b, tail, rfl, -⟩ := htext.front
    refine ⟨_, rest, hrest, htext, .inr fun s hs => ?_⟩
    have hd : r.skipBlank = extend ⟨b :: tail, r.skipBlank.pos⟩ rest := by rw [extend, ← hrest]
    exact ⟨_, hparse hd hs, rfl, rfl, rfl⟩

/-- A text that is no program has an offence. -/
theorem offends_of_parse {src : Text} {fault : Fault} (h : parse src = .error fault) :
    ∃ tokens offset, Tokens 0 src.bytes tokens ∧ Offends src tokens fault offset := by
  rcases reads_or_fails src with ⟨e, r, hreads⟩ | ⟨fault', hfails⟩
  · rw [parse_of_reads hreads] at h
    split_ifs at h with hend
    obtain rfl := Except.error.inj h
    exact offends_of_trailing hreads hend
  · rw [parse_of_fails hfails] at h
    obtain rfl := Except.error.inj h
    exact offends_of_fails hfails

/-- A program shows its leaves, up to the end of the text. -/
theorem shows_of_parse {src : Text} {e : Expr} (h : parse src = .ok e) :
    ∃ d : Cursor, d.rest = [] ∧ Shows src (ofText src) e.leaves d := by
  rcases reads_or_fails src with ⟨e', r, hreads⟩ | ⟨fault, hfails⟩
  · rw [parse_of_reads hreads] at h
    split_ifs at h with hend
    obtain rfl := Except.ok.inj h
    exact ⟨r.skipBlank, hend, (hreads.shows src).skipBlank⟩
  · rw [parse_of_fails hfails] at h
    cases h

/-- Every text has tokens. If it is a program, the leaves are, from left to right, those tokens that
are no marks, with places that ascend, and every node has the place of the offset where the token of
its leftmost leaf begins. If it is no program, the place of the fault is that of the offset where
the offending token, or the end of the text, begins. -/
theorem positions_of_parse (src : Text) :
    (∃ tokens, Tokens 0 src.bytes tokens) ∧ ∀ tokens, Tokens 0 src.bytes tokens →
      (∀ e, parse src = .ok e →
        List.Forall₂ (LeafAt src) e.leaves (atoms tokens) ∧
          (e.leaves.map Expr.pos).Pairwise Position.Before ∧
          ∀ part : Expr, part.Part e → ∃ leaf, part.leaves.head? = some leaf ∧
            ∃ token ∈ tokens, LeafAt src leaf token ∧ part.pos = src.positionAt token.1) ∧
      ∀ fault, parse src = .error fault → ∃ offset, Offends src tokens fault offset := by
  refine ⟨exists_tokens 0 src.bytes, fun tokens htokens => ⟨fun e he => ?_, fun fault hfault => ?_⟩⟩
  · obtain ⟨d, hend, hshows⟩ := shows_of_parse he
    obtain ⟨offset, tokens', -, htokens', hleaves⟩ := hshows.tokens 0 (stands_ofText src)
    have hall := htokens' [] (by rw [hend]; exact .ends offset .nil)
    rw [List.append_nil] at hall
    obtain rfl := hall.unique htokens
    exact ⟨hleaves, hshows.ascending, fun part => exists_token_of_part hleaves⟩
  · obtain ⟨tokens', offset, htokens', hoffends⟩ := offends_of_parse hfault
    obtain rfl := htokens'.unique htokens
    exact ⟨offset, hoffends⟩

end TinyScript
