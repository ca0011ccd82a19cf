import TinyScript.Proofs.ClosureTexts

/-!
# Comparing trees by their texts

Trees are compared node by node, apart from their places, and numbers as doubles are. A tree that
was read has no NaN and no negative zero in it, so two such trees compare equal exactly if they are
the same tree. Their texts are read as these trees again, and hence they are the same exactly if
their texts are: no two trees are written in one way.
-/

namespace TinyScript

namespace Expr

variable {a b : Expr}

/-- A number that can be read has no sign. -/
theorem Readable.unsigned {x : Float} {p : Position} (h : (number x p).Readable) :
    Binary64.Unsigned x := by
  obtain ⟨s, hs⟩ := h
  cases hs with
  | atom _ hatom =>
    cases hatom with
    | number _ _ _ _ =>
      rw [← Token.numberValue_eq_toDouble]
      exact Token.unsigned_numberValue _ _

mutual

/-- Expressions that can be read and compare equal are the same tree. -/
theorem tree_eq_of_same : (a : Expr) → {b : Expr} → a.Readable → b.Readable →
    a.same b = true → a.tree = b.tree
  | .number x _, b, ha, hb, h => by
    cases b with
    | number y q => exact congrArg Tree.number (ha.unsigned.eq_of_beq hb.unsigned h)
    | _ => cases h
  | .string s _, b, _, _, h => by
    cases b with
    | string t q => exact congrArg Tree.string (eq_of_beq h)
    | _ => cases h
  | .word s _, b, _, _, h => by
    cases b with
    | word t q => exact congrArg Tree.word (eq_of_beq h)
    | _ => cases h
  | .apply f as, b, ha, hb, h => by
    cases b with
    | apply g bs =>
      rw [same, Bool.and_eq_true] at h
      have hoperator : f.tree = g.tree :=
        tree_eq_of_same f (inherited_readable.operator f as ha)
          (inherited_readable.operator g bs hb) h.1
      have hargs : as.map tree = bs.map tree :=
        map_tree_eq_of_sameAll as (inherited_readable.argument f as ha)
          (inherited_readable.argument g bs hb) h.2
      rw [tree, tree, trees_eq_map, trees_eq_map, hoperator, hargs]
    | _ => cases h

/-- Lists of expressions that can be read and compare equal are the same trees. -/
theorem map_tree_eq_of_sameAll : (as : List Expr) → {bs : List Expr} → (∀ a ∈ as, a.Readable) →
    (∀ b ∈ bs, b.Readable) → sameAll as bs = true → as.map tree = bs.map tree
  | [], bs, _, _, h => by
    cases bs with
    | nil => rfl
    | cons b bs => cases h
  | a :: as, bs, ha, hb, h => by
    cases bs with
    | nil => cases h
    | cons b bs =>
      rw [sameAll, Bool.and_eq_true] at h
      rw [List.forall_mem_cons] at ha hb
      rw [List.map_cons, List.map_cons, tree_eq_of_same a ha.1 hb.1 h.1,
        map_tree_eq_of_sameAll as ha.2 hb.2 h.2]

end

/-- Expressions that can be read compare equal exactly if they have the same tree. -/
theorem Readable.same_iff_tree_eq (ha : a.Readable) (hb : b.Readable) :
    a.same b = true ↔ a.tree = b.tree :=
  ⟨tree_eq_of_same a ha hb, fun h => (ha.same h.symm).1⟩

/-- Different trees have different texts: each text is read as one tree only. -/
theorem Readable.toText_eq_iff_tree_eq (ha : a.Readable) (hb : b.Readable) :
    a.toText = b.toText ↔ a.tree = b.tree := by
  constructor
  · intro h
    obtain ⟨a', hparse, htree⟩ := ha.parse_text
    obtain ⟨b', hparse', htree'⟩ := hb.parse_text
    rw [h, hparse'] at hparse
    obtain rfl := Except.ok.inj hparse
    rw [← htree, htree']
  · exact toText_congr b

end Expr

/-- A program that was read: the tree that some text is read as. -/
def ReadProgram : Type := { e : Expr // ∃ src, parse src = .ok e }

/-- A program that was read can be read. -/
theorem ReadProgram.readable (a : ReadProgram) : a.val.Readable := by
  obtain ⟨src, hparse⟩ := a.property
  exact Expr.readable_of_parse hparse

/-- Programs that were read compare equal exactly if they have the same text. So comparing them is
an equivalence. -/
theorem same_iff_toText_eq :
    (∀ a b : ReadProgram, a.val.same b.val = true ↔ a.val.toText = b.val.toText) ∧
      Equivalence fun a b : ReadProgram => a.val.same b.val = true := by
  have hiff (a b : ReadProgram) : a.val.same b.val = true ↔ a.val.toText = b.val.toText := by
    rw [a.readable.same_iff_tree_eq b.readable, a.readable.toText_eq_iff_tree_eq b.readable]
  refine ⟨hiff, ?_, ?_, ?_⟩
  · intro a
    exact (hiff a a).mpr rfl
  · intro a b h
    exact (hiff b a).mpr ((hiff a b).mp h).symm
  · intro a b c h h'
    exact (hiff a c).mpr (((hiff a b).mp h).trans ((hiff b c).mp h'))

/-- Spaces, comments and further zeros make no difference, and a number is not the string of its
digits. -/
theorem same_iff_toText_eq_spaced :
    ∃ a b c : ReadProgram, parse "f( 1.50 )" = .ok a.val ∧ parse "f(1.5) # half" = .ok b.val ∧
      parse "f(\"1.5\")" = .ok c.val ∧ a.val.same b.val = true ∧ a.val.same c.val = false := by
  have hread (src : Text) (h : (parse src).toOption.isSome = true) :
      ∃ a : ReadProgram, parse src = .ok a.val := by
    cases hparse : parse src with
    | error fault =>
      rw [hparse] at h
      cases h
    | ok e => exact ⟨⟨e, src, hparse⟩, rfl⟩
  have htext {src t : Text} (h : (parse src).map Expr.toText = .ok t) {a : ReadProgram}
      (ha : parse src = .ok a.val) : a.val.toText = t := by
    rw [ha] at h
    exact Except.ok.inj h
  obtain ⟨a, ha⟩ := hread "f( 1.50 )" (by decide +kernel)
  obtain ⟨b, hb⟩ := hread "f(1.5) # half" (by decide +kernel)
  obtain ⟨c, hc⟩ := hread "f(\"1.5\")" (by decide +kernel)
  have hta : a.val.toText = "f(1.5)" := htext (by decide +kernel) ha
  have htb : b.val.toText = "f(1.5)" := htext (by decide +kernel) hb
  have htc : c.val.toText = "f(\"1.5\")" := htext (by decide +kernel) hc
  refine ⟨a, b, c, ha, hb, hc, (same_iff_toText_eq.1 a b).mpr (hta.trans htb.symm), ?_⟩
  rw [Bool.eq_false_iff, ne_eq, same_iff_toText_eq.1 a c, hta, htc]
  decide

end TinyScript
