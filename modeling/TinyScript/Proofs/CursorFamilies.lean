import TinyScript.Proofs.CharacterBytes
import TinyScript.Proofs.LeafPlaces

/-!
# Families of cursors

Cursors are made at the beginning of a text or as clones of others, and each of them is moved on its
own. What a cursor is then depends only on its own story: the text it was made for, and the moves
that were made with it, or with what it was cloned from before that. Of the moves only their sum
counts, which is the offset where the cursor stands. The place there is counted byte by byte, and on
the bytes of some characters that comes to the same as counting characters.
-/

namespace TinyScript

namespace Position

/-- A byte that continues a character moves the place nowhere. -/
theorem step_of_isContinuation {b : UInt8} (hb : Character.isContinuation b = true) (p : Position) :
    p.step b = p := by
  unfold step
  rw [if_neg, if_pos hb]
  rintro rfl
  exact absurd hb (by decide)

/-- A byte that begins a character, but is no line feed, moves the place by one column. -/
theorem step_of_lead {b : UInt8} (hfeed : b ≠ 0x0A) (hb : Character.isContinuation b = false)
    (p : Position) : p.step b = ⟨p.line, p.column + 1⟩ := by
  unfold step
  rw [if_neg hfeed, if_neg (by simp [hb])]

/-- A line feed begins a line, and every other character takes one column, however many bytes it
has. How many these are goes by the size of the code point. -/
theorem after_utf8EncodeChar (p : Position) (c : Char) :
    p.after (String.utf8EncodeChar c) =
      if c = '\n' then ⟨p.line + 1, 1⟩ else ⟨p.line, p.column + 1⟩ := by
  have hvalid := Character.toNat_lt c
  by_cases hc : c = '\n'
  · rw [hc]
    rfl
  have hfeed : c.toNat ≠ 10 := fun h => hc (Char.toNat_inj.mp h)
  have hlead {b : UInt8} (hb : b.toNat < 128 ∧ b.toNat = c.toNat ∨ 192 ≤ b.toNat) :
      p.step b = ⟨p.line, p.column + 1⟩ := by
    apply step_of_lead
    · rintro rfl
      simp at hb
      omega
    · rw [Bool.eq_false_iff, ne_eq, Character.isContinuation_iff]
      omega
  have hmore {b : UInt8} (hb : 128 ≤ b.toNat ∧ b.toNat < 192) (q : Position) : q.step b = q :=
    q.step_of_isContinuation ((Character.isContinuation_iff b).mpr hb)
  rw [if_neg hc, String.utf8EncodeChar, Char.toNat_val]
  split
  · rw [after_cons, after_nil, hlead]
    simp
    omega
  · split
    · rw [after_cons, after_cons, after_nil, hlead, hmore]
      all_goals simp
      all_goals omega
    · split
      · rw [after_cons, after_cons, after_cons, after_nil, hlead, hmore, hmore]
        all_goals simp
        all_goals omega
      · rw [after_cons, after_cons, after_cons, after_cons, after_nil, hlead, hmore, hmore, hmore]
        all_goals simp
        all_goals omega

/-- Behind some characters, lines are counted by line feeds, and columns by the characters behind
the last of them. -/
theorem after_encode (cs : List Char) :
    start.after (Text.encode cs) =
      ⟨1 + cs.count '\n', 1 + (cs.reverse.takeWhile (· != '\n')).length⟩ := by
  induction cs using List.reverseRecOn with
  | nil => rfl
  | append_singleton cs c ih =>
    rw [Text.encode_append, Text.encode_cons, Text.encode_nil, List.append_nil, after_append, ih,
      after_utf8EncodeChar]
    split_ifs with hc
    · simp [hc, Nat.add_assoc]
    · simp [hc, Nat.add_assoc]

end Position

namespace Cursor

/-- Move forward by a number of bytes; a number that is not above zero moves nothing. -/
def move (n : Int) (c : Cursor) : Cursor := c.advance n.toNat

/-- Moving forward twice is moving forward by the sum. -/
theorem advance_advance (n m : Nat) (c : Cursor) : (c.advance n).advance m = c.advance (n + m) := by
  simp only [advance_eq, List.drop_drop, List.take_add, Position.after_append]

/-- Moves forward, one after the other, are one move. -/
theorem move_move {n m : Int} (hn : 0 ≤ n) (hm : 0 ≤ m) (c : Cursor) :
    (c.move n).move m = c.move (n + m) := by
  rw [move, move, move, advance_advance, Int.toNat_add hn hm]

/-- The character in front of a cursor is the first one of those that are left. -/
theorem peek_encode (cs : List Char) (p : Position) :
    peek ⟨Text.encode cs, p⟩ = Text.ofChars (cs.take 1) := by
  cases cs with
  | nil => rfl
  | cons c cs =>
    obtain ⟨b, rest, hbytes⟩ := List.exists_cons_of_ne_nil (String.utf8EncodeChar_ne_nil (c := c))
    have hread : Character.read b (rest ++ Text.encode cs) = .scalar c := by
      have hdecode : Character.decode? b (rest ++ Text.encode cs) = some c := by
        apply Character.decode?_of_prefix
        rw [hbytes]
        exact List.prefix_append _ (Text.encode cs)
      rw [Character.read, hdecode]
    have hrest : Text.encode (c :: cs) = b :: (rest ++ Text.encode cs) := by
      rw [Text.encode_cons, hbytes, List.cons_append]
    simp only [peek, hrest, hread]
    ext1
    simp [Character.bytes]

/-- A cursor that is moved stands so much further on, at most at the end. -/
theorem Stands.advance {src : Text} {offset : Nat} {c : Cursor} (h : Stands src offset c)
    (n : Nat) : Stands src (min src.size (offset + n)) (c.advance n) := by
  have hspans : Spans (c.rest.take n) c (c.advance n) := by
    rw [advance_eq]
    exact ⟨(List.take_append_drop n c.rest).symm, rfl⟩
  have hlength : offset + (c.rest.take n).length = min src.size (offset + n) := by
    have hle := h.le
    rw [List.length_take, h.rest, List.length_drop, ← Text.size_eq_length]
    omega
  rw [← hlength]
  exact h.spans hspans

/-- What is done with a family of cursors: one is made at the beginning of a text or as a clone of
another one, or one is moved. Cursors are known by their numbers in the order in which they were
made. -/
inductive Deed where
  | create (src : Text)
  | clone (i : Nat)
  | move (i : Nat) (n : Int)

/-- Do something with a family of things that are created, cloned and moved as cursors are. -/
def Deed.perform {α : Type} (create : Text → α) (move : Int → α → α) (family : List α) :
    Deed → List α
  | .create src => family ++ [create src]
  | .clone i => family ++ family[i]?.toList
  | .move i n => family.modify i (move n)

/-- The family that comes of some deeds. -/
def familyOf {α : Type} (create : Text → α) (move : Int → α → α) (deeds : List Deed) : List α :=
  deeds.foldl (Deed.perform create move) []

section Families

variable {α β : Type} {create : Text → α} {move : Int → α → α}

/-- What is done with a family is done alike with the images of its members, if creating and moving
are. -/
theorem Deed.map_perform {create' : Text → β} {move' : Int → β → β} {f : α → β}
    (hcreate : ∀ src, f (create src) = create' src) (hmove : ∀ n a, f (move n a) = move' n (f a))
    (family : List α) (d : Deed) :
    (d.perform create move family).map f = d.perform create' move' (family.map f) := by
  cases d with
  | create src => simp [perform, hcreate]
  | clone i => simp [perform, Option.toList_map]
  | move i n =>
    apply List.ext_getElem?
    intro j
    simp only [perform, List.getElem?_map, List.getElem?_modify]
    split_ifs with hij
    · cases family[j]? with
      | none => rfl
      | some a => exact congrArg some (hmove n a)
    · simp

/-- What is made of the members one by one is made of the family. -/
theorem map_familyOf {create' : Text → β} {move' : Int → β → β} {f : α → β}
    (hcreate : ∀ src, f (create src) = create' src) (hmove : ∀ n a, f (move n a) = move' n (f a))
    (deeds : List Deed) :
    (familyOf create move deeds).map f = familyOf create' move' deeds := by
  induction deeds using List.reverseRecOn with
  | nil => rfl
  | append_singleton deeds d ih =>
    simp only [familyOf, List.foldl_append, List.foldl_cons, List.foldl_nil] at ih ⊢
    rw [Deed.map_perform hcreate hmove, ih]

/-- A deed that does not move a member leaves it as it is. -/
theorem Deed.getElem?_perform {family : List α} {i : Nat} {a : α} (h : family[i]? = some a)
    {d : Deed} (hd : ∀ n, d ≠ .move i n) : (d.perform create move family)[i]? = some a := by
  obtain ⟨hi, -⟩ := List.getElem?_eq_some_iff.mp h
  cases d with
  | create src => rw [perform, List.getElem?_append_left hi, h]
  | clone j => rw [perform, List.getElem?_append_left hi, h]
  | move j n =>
    have hne : j ≠ i := by
      rintro rfl
      exact hd n rfl
    simp [perform, hne, h]

/-- Deeds that do not move a member leave it as it is. -/
theorem getElem?_familyOf_append {deeds more : List Deed} {i : Nat} {a : α}
    (h : (familyOf create move deeds)[i]? = some a) (hmore : ∀ n, Deed.move i n ∉ more) :
    (familyOf create move (deeds ++ more))[i]? = some a := by
  induction more using List.reverseRecOn with
  | nil => rwa [List.append_nil]
  | append_singleton more d ih =>
    simp only [List.mem_append, List.mem_singleton, not_or] at hmore
    rw [familyOf, ← List.append_assoc, List.foldl_append]
    exact Deed.getElem?_perform (ih fun n => (hmore n).1) fun n hn => (hmore n).2 hn.symm

end Families

/-- The cursors that come of some deeds. -/
def cursorsOf (deeds : List Deed) : List Cursor := familyOf ofText Cursor.move deeds

/-- The text that a cursor was made for, and the moves that led to it. -/
structure Story where
  src : Text
  moves : List Int

namespace Story

/-- A story with one more move. -/
def add (n : Int) (story : Story) : Story := { story with moves := story.moves ++ [n] }

/-- What a story alone makes of a new cursor. -/
def cursor (story : Story) : Cursor :=
  story.moves.foldl (fun c n => c.move n) (ofText story.src)

/-- The sum of the moves forward, but at most the size of the text. -/
def offset (story : Story) : Nat :=
  min story.src.size (story.moves.filter (0 < ·)).sum.toNat

/-- A story with one more move makes the cursor with this move made. -/
theorem cursor_add (n : Int) (story : Story) : (story.add n).cursor = story.cursor.move n := by
  simp [cursor, add]

/-- A move forward adds to the offset, up to the size of the text. -/
theorem offset_add (n : Int) (story : Story) :
    (story.add n).offset = min story.src.size (story.offset + n.toNat) := by
  have hnonneg : 0 ≤ (story.moves.filter (0 < ·)).sum := by
    apply List.sum_nonneg
    intro m hm
    have hpos := (List.mem_filter.mp hm).2
    simp only [decide_eq_true_eq] at hpos
    omega
  by_cases hn : 0 < n
  · simp [offset, add, hn]
    omega
  · simp [offset, add, hn]
    omega

/-- The cursor of a story stands at the offset that the moves come to. -/
theorem stands_cursor (story : Story) : Stands story.src story.offset story.cursor := by
  obtain ⟨src, moves⟩ := story
  induction moves using List.reverseRecOn with
  | nil => simpa [offset, cursor] using stands_ofText src
  | append_singleton moves n ih =>
    have hmoved := ih.advance n.toNat
    rw [← offset_add n ⟨src, moves⟩] at hmoved
    rw [← show add n ⟨src, moves⟩ = ⟨src, moves ++ [n]⟩ from rfl, cursor_add]
    exact hmoved

end Story

/-- The stories of the cursors that come of some deeds. A clone has the story of what it was cloned
from, up to then. -/
def storiesOf (deeds : List Deed) : List Story := familyOf (⟨·, []⟩) Story.add deeds

/-- Each cursor is what its own story alone makes of a new one. -/
theorem map_storiesOf (deeds : List Deed) : (storiesOf deeds).map Story.cursor = cursorsOf deeds :=
  map_familyOf (fun _ => rfl) Story.cursor_add deeds

/-- Where a cursor stands in front of characters that are known, places and characters are those of
the characters. -/
theorem Stands.characters {cs : List Char} {k : Nat} {c : Cursor}
    (h : Stands (Text.ofChars cs) (Text.ofChars (cs.take k)).size c) :
    c.pos = ⟨1 + (cs.take k).count '\n',
        1 + ((cs.take k).reverse.takeWhile (· != '\n')).length⟩ ∧
      c.peek = Text.ofChars ((cs.drop k).take 1) := by
  have hsize : (Text.ofChars (cs.take k)).size = (Text.encode (cs.take k)).length := rfl
  constructor
  · rw [h.pos, Text.positionAt_eq, hsize, Text.bytes_ofChars, Text.take_encode,
      Position.after_encode]
  · have hrest := h.rest
    rw [hsize, Text.bytes_ofChars, Text.drop_encode] at hrest
    rw [← peek_encode (cs.drop k) c.pos, ← hrest]

end Cursor

open Cursor

/-- Cursors are made at the beginnings of texts and as clones, and moved by any integers, in any
order. Then each of them is what its own moves make of a new cursor, and what is done with the
others does not change it. The rest of the text begins at the offset that its moves forward come to,
at most at the end, and its place is that of the offset; so two moves forward are one. If the text
is one of characters and the offset is between two of them, the column counts the characters behind
the last line feed, and the next character is the one at the offset. -/
theorem cursors_go_by_offset {deeds : List Deed} {i : Nat} {c : Cursor}
    (hc : (cursorsOf deeds)[i]? = some c) :
    (∀ more, (∀ n, Deed.move i n ∉ more) → (cursorsOf (deeds ++ more))[i]? = some c) ∧
      (∀ n m, 0 ≤ n → 0 ≤ m → (c.move n).move m = c.move (n + m)) ∧
      ∃ story, (storiesOf deeds)[i]? = some story ∧ c = story.cursor ∧
        c.remaining = story.src.drop story.offset ∧
        c.pos = story.src.positionAt story.offset ∧
        ∀ cs k, story.src = Text.ofChars cs → story.offset = (Text.ofChars (cs.take k)).size →
          c.pos = ⟨1 + (cs.take k).count '\n',
              1 + ((cs.take k).reverse.takeWhile (· != '\n')).length⟩ ∧
            c.peek = Text.ofChars ((cs.drop k).take 1) := by
  refine ⟨fun more hmore => getElem?_familyOf_append hc hmore,
    fun n m hn hm => move_move hn hm c, ?_⟩
  rw [← map_storiesOf, List.getElem?_map, Option.map_eq_some_iff] at hc
  obtain ⟨story, hstory, rfl⟩ := hc
  have hstands := story.stands_cursor
  refine ⟨story, hstory, rfl, ?_, hstands.pos, ?_⟩
  · ext1
    rw [remaining, Text.bytes_ofBytes, hstands.rest, Text.drop, Text.bytes_cut, Text.size_eq_length,
      List.take_length]
  · intro cs k hsrc hoffset
    rw [hsrc, hoffset] at hstands
    exact hstands.characters

/-- A cursor behind a line feed is cloned. The clone is moved past a character, and the other one
into the middle of a character and not back. -/
theorem cursors_go_by_offset_clone :
    ∃ c story,
      (cursorsOf [.create "ä\nb€", .move 0 3, .clone 0, .move 1 1, .move 0 2, .move 0 (-1)])[1]? =
        some c ∧
      (storiesOf [.create "ä\nb€", .move 0 3, .clone 0, .move 1 1, .move 0 2, .move 0 (-1)])[1]? =
        some story ∧
      story.moves = [3, 1] ∧ c.remaining = story.src.drop 4 ∧ c.pos = ⟨2, 2⟩ ∧
      c.peek = Text.ofChars ['€'] := by
  have hc : (cursorsOf
      [.create "ä\nb€", .move 0 3, .clone 0, .move 1 1, .move 0 2, .move 0 (-1)])[1]? =
      some ⟨("€" : Text).bytes, ⟨2, 2⟩⟩ := by decide
  obtain ⟨-, -, story, hstory, -, hrest, -, hcharacters⟩ := cursors_go_by_offset hc
  obtain rfl : ⟨"ä\nb€", [3, 1]⟩ = story := Option.some.inj hstory
  obtain ⟨hpos, hpeek⟩ := hcharacters ['ä', '\n', 'b', '€'] 3 (by decide) (by decide)
  exact ⟨_, _, hc, hstory, rfl, hrest, hpos, hpeek⟩

end TinyScript
