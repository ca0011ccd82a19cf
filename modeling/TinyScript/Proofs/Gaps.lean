import TinyScript.Proofs.Grammar
import Mathlib.Data.List.Basic

/-!
# Skipping gaps

Skipping blanks passes a gap of the grammar and stops where no gap goes on. Conversely it passes
every gap in front of such bytes, whatever stands behind them.
-/

namespace TinyScript

namespace Position

/-- No bytes move the place nowhere. -/
@[simp] theorem after_nil (p : Position) : p.after [] = p := rfl

/-- The first byte moves the place first. -/
@[simp] theorem after_cons (p : Position) (b : UInt8) (s : List UInt8) :
    p.after (b :: s) = (p.step b).after s := rfl

/-- Bytes one behind the other move the place one after the other. -/
@[simp] theorem after_append (p : Position) (s t : List UInt8) :
    p.after (s ++ t) = (p.after s).after t := List.foldl_append

end Position

namespace Cursor

/-- The bytes that lie between two cursors of one text. -/
structure Spans (s : List UInt8) (c d : Cursor) : Prop where
  rest : c.rest = s ++ d.rest
  pos : d.pos = c.pos.after s

/-- Nothing lies between a cursor and itself. -/
theorem Spans.refl (c : Cursor) : Spans [] c c := ⟨rfl, rfl⟩

/-- What lies between three cursors in turn lies between the outer two. -/
theorem Spans.append {s t : List UInt8} {c d e : Cursor} (h : Spans s c d) (h' : Spans t d e) :
    Spans (s ++ t) c e := by
  constructor
  · rw [h.rest, h'.rest, List.append_assoc]
  · rw [h'.pos, h.pos, Position.after_append]

/-- Advancing over the bytes in front. -/
theorem advance_append (s rest : List UInt8) (p : Position) :
    advance s.length ⟨s ++ rest, p⟩ = ⟨rest, p.after s⟩ := by
  rw [advance_eq]
  simp

/-- Advancing over bytes passes them. -/
theorem spans_advance {s rest : List UInt8} {c : Cursor} (h : c.rest = s ++ rest) :
    Spans s c (c.advance s.length) := by
  obtain ⟨bytes, p⟩ := c
  obtain rfl : bytes = s ++ rest := h
  rw [advance_append]
  exact ⟨rfl, rfl⟩

/-- A cursor into a text with more bytes behind it. -/
def extend (c : Cursor) (t : List UInt8) : Cursor := ⟨c.rest ++ t, c.pos⟩

/-- More bytes stand behind the rest. -/
@[simp] theorem extend_rest (c : Cursor) (t : List UInt8) : (c.extend t).rest = c.rest ++ t := rfl

/-- More bytes behind the rest do not move the place. -/
@[simp] theorem extend_pos (c : Cursor) (t : List UInt8) : (c.extend t).pos = c.pos := rfl

/-- Advancing within a text does not depend on what is behind it. -/
theorem advance_extend {n : Nat} {c : Cursor} (h : n ≤ c.rest.length) (t : List UInt8) :
    (c.extend t).advance n = (c.advance n).extend t := by
  rw [advance_eq, advance_eq, extend, extend, List.drop_append_of_le_length h,
    List.take_append_of_le_length h]

end Cursor

namespace Grammar

/-- Bytes that neither continue a gap nor begin one. -/
def Settled (rest : List UInt8) : Prop :=
  ∀ b, rest.head? = some b → Token.isBlank b = false ∧ b ≠ Token.hash

/-- Bytes that continue no number and no word. -/
def Delimited (rest : List UInt8) : Prop := ∀ b, rest.head? = some b → Token.isWord b = false

/-- The end of a text neither continues a gap nor begins one. -/
theorem settled_nil : Settled [] := fun _ h => nomatch h

/-- A byte that is neither white space nor a hash neither continues a gap nor begins one. -/
theorem settled_cons {b : UInt8} {rest : List UInt8} (hb : Token.isBlank b = false)
    (hne : b ≠ Token.hash) : Settled (b :: rest) := by
  rintro _ ⟨⟩
  exact ⟨hb, hne⟩

/-- Whether bytes are settled is decided by the first of them. -/
theorem Settled.append {rest : List UInt8} (h : Settled rest) (hne : rest ≠ []) (t : List UInt8) :
    Settled (rest ++ t) := by
  intro b hb
  rw [List.head?_append_of_ne_nil _ hne] at hb
  exact h b hb

/-- A comment may have another byte in front of its text. -/
theorem Gap.comment_cons {atEnd : Bool} {b : UInt8} {s : List UInt8} (hb : b ≠ 0x0A)
    (h : Gap atEnd (Token.hash :: s)) : Gap atEnd (Token.hash :: b :: s) := by
  have hcons {text : List UInt8} (htext : 0x0A ∉ text) : 0x0A ∉ b :: text := by
    simp [hb.symm, htext]
  cases h with
  | blank hblank _ => exact absurd hblank (by decide)
  | @comment text s htext hs => exact .comment (hcons htext) hs
  | lastComment hend htext => exact .lastComment hend (hcons htext)

/-- A gap up to the end of a text, with a line feed behind it, is a gap anywhere. -/
theorem Gap.lineFeed {gap : List UInt8} (h : Gap true gap) : Gap false (gap ++ [0x0A]) := by
  induction h with
  | nil => exact .blank rfl .nil
  | blank hb _ ih => exact .blank hb ih
  | comment htext _ ih =>
    rw [List.cons_append, List.append_assoc]
    exact .comment htext ih
  | lastComment _ htext => exact .comment htext (.blank rfl .nil)

/-- A gap that needs no end of text is a gap at the end as well. -/
theorem Gap.mono {atEnd : Bool} {gap : List UInt8} (h : Gap false gap) : Gap atEnd gap := by
  induction h with
  | nil => exact .nil
  | blank hb _ ih => exact .blank hb ih
  | comment htext _ ih => exact .comment htext ih
  | lastComment hend _ => exact nomatch hend

/-- One gap behind another one. -/
theorem Gap.append {atEnd : Bool} {gap gap' : List UInt8} (h : Gap false gap)
    (h' : Gap atEnd gap') : Gap atEnd (gap ++ gap') := by
  induction h with
  | nil => exact h'
  | blank hb _ ih => exact .blank hb ih
  | comment htext _ ih =>
    rw [List.cons_append, List.append_assoc]
    exact .comment htext ih
  | lastComment hend _ => exact nomatch hend

end Grammar

namespace Cursor

open Grammar

/-- Skipping passes a gap and stops where no gap goes on; in an open comment, what it passes is
what is left of the comment and a gap behind it. -/
theorem skipFrom_spec (comment : Bool) (rest : List UInt8) (p : Position) :
    ∃ gap, Spans gap ⟨rest, p⟩ (skipFrom comment rest p) ∧
      Settled (skipFrom comment rest p).rest ∧
      Gap (skipFrom comment rest p).rest.isEmpty (if comment then Token.hash :: gap else gap) := by
  induction rest generalizing comment p with
  | nil =>
    refine ⟨[], .refl _, settled_nil, ?_⟩
    cases comment with
    | false => exact .nil
    | true => exact .lastComment rfl (List.not_mem_nil)
  | cons b rest ih =>
    have hstep {r : Cursor} {gap : List UInt8} (h : Spans gap ⟨rest, p.step b⟩ r) :
        Spans (b :: gap) ⟨b :: rest, p⟩ r := Spans.append (s := [b]) ⟨rfl, rfl⟩ h
    rw [skipFrom]
    split_ifs with hcomment hblank hhash
    · obtain ⟨gap, hspans, hsettled, hgap⟩ := ih (b != 0x0A) (p.step b)
      refine ⟨b :: gap, hstep hspans, hsettled, ?_⟩
      by_cases hb : b = 0x0A
      · subst hb
        exact @Gap.comment _ [] _ List.not_mem_nil (.blank rfl hgap)
      · rw [if_pos (by simpa using hb)] at hgap
        exact hgap.comment_cons hb
    · obtain ⟨gap, hspans, hsettled, hgap⟩ := ih false (p.step b)
      exact ⟨b :: gap, hstep hspans, hsettled, .blank hblank hgap⟩
    · obtain rfl := eq_of_beq hhash
      obtain ⟨gap, hspans, hsettled, hgap⟩ := ih true (p.step Token.hash)
      exact ⟨Token.hash :: gap, hstep hspans, hsettled, hgap⟩
    · exact ⟨[], .refl _, settled_cons (by simpa using hblank) (by simpa using hhash), .nil⟩

/-- Skipping blanks passes a gap and stops where no gap goes on. -/
theorem skipBlank_spec (c : Cursor) :
    ∃ gap, Spans gap c c.skipBlank ∧ Settled c.skipBlank.rest ∧
      Gap c.skipBlank.rest.isEmpty gap := skipFrom_spec false c.rest c.pos

/-- Skipping in an open comment passes the rest of its line. -/
theorem skipFrom_comment {text : List UInt8} (htext : 0x0A ∉ text) (rest : List UInt8)
    (p : Position) (hrest : ∀ b, rest.head? = some b → b = 0x0A) :
    skipFrom true (text ++ rest) p = skipFrom false rest (p.after text) := by
  induction text generalizing p with
  | nil =>
    cases rest with
    | nil => rfl
    | cons b rest =>
      obtain rfl := hrest b rfl
      rfl
  | cons b text ih =>
    simp only [List.mem_cons, not_or] at htext
    have hb : (b != 0x0A) = true := by simpa using Ne.symm htext.1
    rw [List.cons_append, skipFrom, if_pos rfl, hb, ih htext.2, Position.after_cons]

/-- Skipping passes every gap that stands in front of settled bytes. -/
theorem skipFrom_gap {atEnd : Bool} {gap rest : List UInt8} (h : Gap atEnd gap)
    (hsettled : Settled rest) (hend : atEnd = true → rest = []) (p : Position) :
    skipFrom false (gap ++ rest) p = ⟨rest, p.after gap⟩ := by
  induction h generalizing p with
  | nil =>
    cases rest with
    | nil => rfl
    | cons b rest =>
      obtain ⟨hblank, hhash⟩ := hsettled b rfl
      simp [skipFrom, hblank, hhash]
  | @blank b s hb _ ih =>
    rw [List.cons_append, skipFrom, if_neg Bool.false_ne_true, if_pos hb, ih, Position.after_cons]
  | @comment text s htext _ ih =>
    have hskip := ih (p.after (Token.hash :: text))
    rw [List.cons_append, skipFrom, List.append_assoc]
    change skipFrom true _ _ = _
    rw [skipFrom_comment htext _ _ (by simp), ← Position.after_cons, hskip,
      ← Position.after_append, List.cons_append]
  | @lastComment text hatEnd htext =>
    obtain rfl := hend hatEnd
    rw [List.cons_append, skipFrom]
    change skipFrom true _ _ = _
    rw [skipFrom_comment htext [] _ (by simp)]
    rfl

/-- Skipping blanks passes every gap that stands in front of settled bytes. -/
theorem skipBlank_gap {gap rest : List UInt8} (h : Gap rest.isEmpty gap) (hsettled : Settled rest)
    (p : Position) : skipBlank ⟨gap ++ rest, p⟩ = ⟨rest, p.after gap⟩ :=
  skipFrom_gap h hsettled (by simp) p

/-- Where skipping stops at a byte, it stops there whatever follows. -/
theorem skipBlank_extend {c : Cursor} (hne : c.skipBlank.rest ≠ []) (t : List UInt8) :
    (c.extend t).skipBlank = c.skipBlank.extend t := by
  obtain ⟨gap, hspans, hsettled, hgap⟩ := c.skipBlank_spec
  rw [List.isEmpty_eq_false_iff.mpr hne] at hgap
  have hskip := skipFrom_gap hgap (hsettled.append hne t) (by simp) c.pos
  rw [skipBlank, extend_rest, hspans.rest, List.append_assoc, extend_pos, hskip, extend,
    ← hspans.pos]

end Cursor

end TinyScript
