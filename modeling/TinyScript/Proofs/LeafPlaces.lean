import TinyScript.Proofs.Tokens

/-!
# The places of leaves

A place is counted from an offset: lines by the line feeds in front of it, columns by the characters
behind the last of them. The reader counts byte by byte as it passes them, and each leaf of what it
reads has the place of the offset where the token of that leaf begins. The leaves of an expression
are, in order, the tokens of its text that are no marks, and their places ascend: tokens may begin
with bytes that take no column, but between two leaves there is a mark.
-/

namespace TinyScript

namespace Position

/-- One place is in front of another one. -/
def Before (p q : Position) : Prop := p.line < q.line ∨ p.line = q.line ∧ p.column < q.column

instance (p q : Position) : Decidable (p.Before q) := inferInstanceAs (Decidable (_ ∨ _))

/-- Not being in front of a place is transitive. -/
theorem not_before_trans {p q r : Position} (h : ¬ q.Before p) (h' : ¬ r.Before q) :
    ¬ r.Before p := by
  unfold Before at *
  omega

/-- A place in front of another one is in front of every place that is not in front of that one. -/
theorem Before.trans_not {p q r : Position} (h : p.Before q) (h' : ¬ r.Before q) :
    p.Before r := by
  unfold Before at *
  omega

/-- A place that is not behind another one is in front of everything behind that one. -/
theorem Before.of_not {p q r : Position} (h : ¬ q.Before p) (h' : q.Before r) : p.Before r := by
  unfold Before at *
  omega

/-- No two places are in front of each other. -/
theorem Before.asymm {p q : Position} (h : p.Before q) : ¬ q.Before p := by
  unfold Before at *
  omega

/-- A byte that begins a character moves the place on. -/
theorem before_step {b : UInt8} (hb : Character.isContinuation b = false) (p : Position) :
    p.Before (p.step b) := by
  unfold step
  split_ifs with hfeed hcontinues
  · exact .inl p.line.lt_succ_self
  · exact absurd hcontinues (by simp [hb])
  · exact .inr ⟨rfl, p.column.lt_succ_self⟩

/-- No byte moves the place back. -/
theorem not_before_step (p : Position) (b : UInt8) : ¬ (p.step b).Before p := by
  cases hb : Character.isContinuation b with
  | false => exact (before_step hb p).asymm
  | true =>
    unfold step Before
    split_ifs
    · dsimp only
      omega
    · omega

/-- No bytes move the place back. -/
theorem not_before_after (p : Position) (bytes : List UInt8) : ¬ (p.after bytes).Before p := by
  induction bytes generalizing p with
  | nil =>
    unfold Before
    simp
  | cons b bytes ih => exact not_before_trans (p.not_before_step b) (ih (p.step b))

end Position

namespace Text

/-- The place of an offset: one line for each line feed in front of it, and one column for each byte
behind the last line feed that continues no character. -/
def positionAt (src : Text) (offset : Nat) : Position where
  line := 1 + (src.bytes.take offset).count 0x0A
  column := 1 + ((src.bytes.take offset).reverse.takeWhile (· != 0x0A)).countP
    fun b => !Character.isContinuation b

/-- Counting byte by byte comes to the place of the offset. -/
theorem positionAt_eq (src : Text) (offset : Nat) :
    src.positionAt offset = Position.start.after (src.bytes.take offset) := by
  unfold positionAt
  induction src.bytes.take offset using List.reverseRecOn with
  | nil => rfl
  | append_singleton bytes b ih =>
    rw [Position.after_append, ← ih, Position.after_cons, Position.after_nil, Position.step]
    split_ifs with hb hcontinues
    · simp [hb, Nat.add_assoc]
    · simp [hb, hcontinues]
    · simp [hb, hcontinues, Nat.add_assoc]

/-- Two bytes that make one character take one column. -/
example : ("a\n\u00e9 b" : Text).positionAt 5 = ⟨2, 3⟩ := by decide

end Text

namespace Cursor

/-- A cursor stands at an offset of a text. -/
structure Stands (src : Text) (offset : Nat) (c : Cursor) : Prop where
  le : offset ≤ src.size
  rest : c.rest = src.bytes.drop offset
  pos : c.pos = src.positionAt offset

/-- A new cursor stands at the beginning of its text. -/
theorem stands_ofText (src : Text) : Stands src 0 (ofText src) where
  le := src.size.zero_le
  rest := List.drop_zero.symm
  pos := by rw [Text.positionAt_eq, List.take_zero]; rfl

/-- Passing bytes moves the offset by their number. -/
theorem Stands.spans {src : Text} {offset : Nat} {c d : Cursor} {text : List UInt8}
    (h : Stands src offset c) (hspans : Spans text c d) :
    Stands src (offset + text.length) d := by
  have hrest : src.bytes.drop offset = text ++ d.rest := h.rest.symm.trans hspans.rest
  constructor
  · have hlength := congrArg List.length hrest
    have hle := h.le
    rw [List.length_drop, List.length_append, ← Text.size_eq_length] at hlength
    omega
  · rw [← List.drop_drop, hrest, List.drop_left]
  · rw [hspans.pos, h.pos, Text.positionAt_eq, Text.positionAt_eq, List.take_add, hrest,
      List.take_left, Position.after_append]

end Cursor

namespace Expr

mutual

/-- The numbers, texts and words of an expression, from left to right. -/
def leaves : Expr → List Expr
  | number x p => [number x p]
  | string s p => [string s p]
  | word name p => [word name p]
  | apply operator args => operator.leaves ++ leavesAll args

/-- The numbers, texts and words of some expressions, from left to right. -/
def leavesAll : List Expr → List Expr
  | [] => []
  | e :: rest => e.leaves ++ leavesAll rest

end

/-- The leaves of some expressions are those of each, one behind the other. -/
@[simp] theorem leavesAll_eq_flatMap (args : List Expr) : leavesAll args = args.flatMap leaves := by
  induction args with
  | nil => rfl
  | cons e rest ih => rw [leavesAll, ih, List.flatMap_cons]

/-- The leaves of an application are those of its operator and, behind them, those of its
arguments. -/
theorem leaves_apply (operator : Expr) (args : List Expr) :
    (apply operator args).leaves = operator.leaves ++ args.flatMap leaves := by
  rw [leaves, leavesAll_eq_flatMap]

/-- The token of an expression that is an atom is its only leaf. -/
theorem leaves_of_atom {text : List UInt8} {e : Expr} (h : Grammar.Atom text e.tree) :
    e.leaves = [e] := by
  cases e with
  | number x p => rfl
  | string s p => rfl
  | word name p => rfl
  | apply operator args => cases h

end Expr

open Grammar Cursor

/-- A leaf is what a token is read as, and has the place where it begins. -/
structure LeafAt (src : Text) (leaf : Expr) (token : Nat × List UInt8) : Prop where
  atom : Atom token.2 leaf.tree
  pos : leaf.pos = src.positionAt token.1

/-- The tokens that are no marks. -/
def atoms (tokens : List (Nat × List UInt8)) : List (Nat × List UInt8) :=
  tokens.filter fun token => !Token.isMark token.2

/-- Marks are left out of tokens one behind the other in the same way. -/
@[simp] theorem atoms_append (tokens more : List (Nat × List UInt8)) :
    atoms (tokens ++ more) = atoms tokens ++ atoms more := List.filter_append ..

/-- The leaves are those of the text between two cursors: its tokens without the marks, with
places that ascend. -/
structure Shows (src : Text) (c : Cursor) (leaves : List Expr) (d : Cursor) : Prop where
  tokens : ∀ offset, Stands src offset c → ∃ offset' tokens, Stands src offset' d ∧
    (∀ more, Tokens offset' d.rest more → Tokens offset c.rest (tokens ++ more)) ∧
      List.Forall₂ (LeafAt src) leaves (atoms tokens)
  ascending : (leaves.map Expr.pos).Pairwise Position.Before
  within : ∀ leaf ∈ leaves, ¬ leaf.pos.Before c.pos ∧ ¬ d.pos.Before leaf.pos
  forward : ¬ d.pos.Before c.pos

namespace Shows

variable {src : Text} {c d r : Cursor} {leaves leaves' : List Expr}

/-- Between a cursor and itself there are no leaves. -/
theorem refl (src : Text) (c : Cursor) : Shows src c [] c where
  tokens offset h := ⟨offset, [], h, fun _ htokens => htokens, .nil⟩
  ascending := .nil
  within _ hleaf := nomatch hleaf
  forward := c.pos.not_before_after []

/-- A gap has no leaves. -/
theorem skipBlank (h : Shows src c leaves d) : Shows src c leaves d.skipBlank := by
  obtain ⟨gap, hspans, -, hgap⟩ := d.skipBlank_spec
  have hforward : ¬ d.skipBlank.pos.Before d.pos := by
    rw [hspans.pos]
    exact d.pos.not_before_after gap
  refine ⟨fun offset hoffset => ?_, h.ascending, fun leaf hleaf => ?_, ?_⟩
  · obtain ⟨offset', tokens, hstands, htokens, hleaves⟩ := h.tokens offset hoffset
    refine ⟨_, tokens, hstands.spans hspans, fun more hmore => htokens more ?_, hleaves⟩
    rw [hspans.rest]
    exact hmore.gap hgap
  · exact ⟨(h.within leaf hleaf).1, Position.not_before_trans (h.within leaf hleaf).2 hforward⟩
  · exact Position.not_before_trans h.forward hforward

/-- A mark, what is in front of it and what is behind it. Nothing but the mark is sure to take a
column, since words may begin with bytes that take none. -/
theorem append_mark {b : UInt8} (h : Shows src c leaves d) (hmark : d.skipBlank.rest.head? = some b)
    (hb : b = Token.opening ∨ b = Token.closing ∨ b = Token.comma)
    (h' : Shows src (d.skipBlank.advance 1) leaves' r) : Shows src c (leaves ++ leaves') r := by
  have hskip := h.skipBlank
  have hspans := spans_mark hmark
  have hbefore : d.skipBlank.pos.Before (d.skipBlank.advance 1).pos := by
    rw [hspans.pos]
    exact Position.before_step (by rcases hb with rfl | rfl | rfl <;> rfl) _
  have hlate : ∀ leaf ∈ leaves', d.skipBlank.pos.Before leaf.pos :=
    fun leaf hleaf => hbefore.trans_not (h'.within leaf hleaf).1
  constructor
  · intro offset hoffset
    obtain ⟨offset₁, tokens, hstands, htokens, hleaves⟩ := hskip.tokens offset hoffset
    obtain ⟨offset₂, tokens', hstands', htokens', hleaves'⟩ := h'.tokens _ (hstands.spans hspans)
    refine ⟨offset₂, tokens ++ (offset₁, [b]) :: tokens', hstands', fun more hmore => ?_, ?_⟩
    · have hgo := @Tokens.token offset₁ [] [b] _ _ .nil (.mark hb _) (htokens' more hmore)
      rw [List.append_assoc]
      apply htokens
      rw [hspans.rest]
      exact hgo
    · have hdrop : atoms ((offset₁, [b]) :: tokens') = atoms tokens' := by
        rcases hb with rfl | rfl | rfl <;> rfl
      rw [atoms_append, hdrop]
      exact List.rel_append hleaves hleaves'
  · rw [List.map_append, List.pairwise_append]
    refine ⟨h.ascending, h'.ascending, ?_⟩
    simp only [List.mem_map]
    rintro _ ⟨leaf, hleaf, rfl⟩ _ ⟨leaf', hleaf', rfl⟩
    exact .of_not (hskip.within leaf hleaf).2 (hlate leaf' hleaf')
  · intro leaf hleaf
    rcases List.mem_append.mp hleaf with hleaf | hleaf
    · exact ⟨(h.within leaf hleaf).1, Position.not_before_trans (hskip.within leaf hleaf).2
        (Position.not_before_trans hbefore.asymm h'.forward)⟩
    · exact ⟨Position.not_before_trans hskip.forward (hlate leaf hleaf).asymm,
        (h'.within leaf hleaf).2⟩
  · exact Position.not_before_trans hskip.forward
      (Position.not_before_trans hbefore.asymm h'.forward)

/-- An atom is one leaf. -/
theorem atom {e : Expr} (h : Parser.atom c.skipBlank = .ok (e, d)) : Shows src c e.leaves d := by
  obtain ⟨text, hspans, hleaf⟩ := Parser.leaf_of_atom h
  have hskip := (refl src c).skipBlank
  have hforward : ¬ d.pos.Before c.skipBlank.pos := by
    rw [hspans.pos]
    exact c.skipBlank.pos.not_before_after text
  rw [Expr.leaves_of_atom hleaf.atom]
  constructor
  · intro offset hoffset
    obtain ⟨offset', tokens, hstands, htokens, hleaves⟩ := hskip.tokens offset hoffset
    refine ⟨_, tokens ++ [(offset', text)], hstands.spans hspans, fun more hmore => ?_, ?_⟩
    · rw [List.append_assoc]
      apply htokens
      rw [hspans.rest]
      exact @Tokens.token offset' [] text _ _ .nil hleaf.lexeme hmore
    · have hkeep : atoms [(offset', text)] = [(offset', text)] := by
        simp [atoms, hleaf.atom.isMark_eq_false]
      rw [atoms_append, hkeep]
      exact List.rel_append hleaves (.cons ⟨hleaf.atom, hleaf.pos_eq.trans hstands.pos⟩ .nil)
  · exact List.pairwise_singleton ..
  · intro leaf hmem
    obtain rfl := List.mem_singleton.mp hmem
    rw [hleaf.pos_eq]
    exact ⟨hskip.forward, hforward⟩
  · exact Position.not_before_trans hskip.forward hforward

end Shows

namespace Parser

mutual

/-- An expression that is read shows its leaves. -/
theorem ReadsExpression.shows (src : Text) {c r : Cursor} {e : Expr} :
    ReadsExpression c e r → Shows src c e.leaves r
  | .atom hatom hcalls => hcalls.shows (.atom hatom)

/-- Argument lists that are read show their leaves behind those of the operator. -/
theorem ReadsCalls.shows {src : Text} {start c r : Cursor} {e e' : Expr} :
    ReadsCalls e c e' r → Shows src start e.leaves c → Shows src start e'.leaves r
  | .done _, h => h.skipBlank
  | .empty hopen hclose hcalls, h => by
    have hargs := (Shows.refl src (c.skipBlank.advance 1)).append_mark hclose (.inr (.inl rfl))
      (.refl src _)
    have hcall := h.append_mark hopen (.inl rfl) hargs
    exact hcalls.shows (by rwa [Expr.leaves_apply])
  | .call hopen _ hargs hcalls, h => by
    obtain ⟨new, rfl, hnew⟩ := hargs.shows src
    have hcall := h.append_mark hopen (.inl rfl) hnew
    exact hcalls.shows (by rwa [Expr.leaves_apply])

/-- Arguments that are read show the leaves of those that are new. -/
theorem ReadsArguments.shows (src : Text) {c r : Cursor} {done args : List Expr} :
    ReadsArguments done c args r →
      ∃ new, args = done.reverse ++ new ∧ Shows src c (new.flatMap Expr.leaves) r
  | .comma (e := e) hexpr hmark hargs => by
    obtain ⟨new, rfl, hnew⟩ := hargs.shows src
    refine ⟨e :: new, by simp, ?_⟩
    rw [List.flatMap_cons]
    exact (hexpr.shows src).append_mark hmark (.inr (.inr rfl)) hnew
  | .close (e := e) hexpr hmark => by
    refine ⟨[e], by simp, ?_⟩
    rw [List.flatMap_cons, List.flatMap_nil]
    exact (hexpr.shows src).append_mark hmark (.inr (.inl rfl)) (.refl src _)

end

end Parser

end TinyScript
