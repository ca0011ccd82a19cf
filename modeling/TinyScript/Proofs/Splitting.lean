import Mathlib.Data.Nat.Find
import TinyScript.Proofs.CharacterBytes
import TinyScript.Proofs.SequenceBuiltins

/-!
# Splitting texts

A text is cut where the separator occurs first, and what is behind this occurrence is cut in the
same way. So occurrences that overlap the one before do not count. An empty separator takes a text
apart into its characters. Either way, the pieces joined by the separator are the text again.
-/

namespace TinyScript.Text

variable {t sep : Text} {pieces : List Text}

/-- Dropping from a text drops bytes. -/
@[simp] theorem bytes_drop (t : Text) (n : Nat) : (t.drop n).bytes = t.bytes.drop n := by
  rw [drop, bytes_cut, size_eq_length, List.take_length]

/-- Taking from a text takes bytes. -/
@[simp] theorem bytes_take (t : Text) (n : Nat) : (t.take n).bytes = t.bytes.take n := by
  rw [take, bytes_cut, List.drop_zero]

instance (t needle : Text) (i : Nat) : Decidable (OccursAt t needle i) :=
  inferInstanceAs (Decidable (t.cut i (i + needle.size) = needle))

/-- A text occurs where the bytes of another one begin with its own. -/
theorem occursAt_iff {needle : Text} {i : Nat} :
    OccursAt t needle i ↔ needle.bytes <+: t.bytes.drop i := by
  rw [OccursAt, Text.ext_iff, bytes_cut, List.drop_take, Nat.add_sub_cancel_left,
    List.prefix_iff_eq_take, ← size_eq_length]
  exact eq_comm

/-- An occurrence behind a place is one of the whole text, so much further on. -/
theorem occursAt_drop_iff {needle : Text} {i j : Nat} :
    OccursAt (t.drop i) needle j ↔ OccursAt t needle (i + j) := by
  rw [occursAt_iff, occursAt_iff, bytes_drop, List.drop_drop]

/-- A text occurs where it stands. -/
theorem occursAt_append (u rest : Text) : OccursAt (u ++ (sep ++ rest)) sep u.size := by
  rw [occursAt_iff, bytes_append, bytes_append, size_eq_length, List.drop_left]
  exact List.prefix_append _ _

/-- What is in front of an occurrence, the occurrence and what is behind it are the text. -/
theorem OccursAt.eq_append {i : Nat} (h : OccursAt t sep i) :
    t = t.take i ++ (sep ++ t.drop (i + sep.size)) := by
  obtain ⟨rest, hrest⟩ := occursAt_iff.mp h
  have hdrop : t.bytes.drop (i + sep.size) = rest := by
    rw [← List.drop_drop, ← hrest, size_eq_length, List.drop_left]
  ext1
  rw [bytes_append, bytes_append, bytes_take, bytes_drop, hdrop, hrest, List.take_append_drop]

/-- The pieces of a text that is cut at a separator: at the first occurrence, and then what is
behind it likewise. -/
inductive CutInto (sep : Text) : Text → List Text → Prop where
  | whole (t : Text) (hnone : ∀ i, ¬ OccursAt t sep i) : CutInto sep t [t]
  | cut (piece : Text) {rest : Text} {pieces : List Text}
      (hfirst : ∀ i < piece.size, ¬ OccursAt (piece ++ (sep ++ rest)) sep i)
      (hrest : CutInto sep rest pieces) : CutInto sep (piece ++ (sep ++ rest)) (piece :: pieces)

/-- Every text can be cut, by induction on its size. -/
theorem exists_cutInto (hsep : 0 < sep.size) (t : Text) : ∃ pieces, CutInto sep t pieces := by
  classical
  induction hn : t.size using Nat.strongRecOn generalizing t with
  | ind n ih =>
    by_cases hoccurs : ∃ i, OccursAt t sep i
    · have hfound := Nat.find_spec hoccurs
      have hsize : (t.take (Nat.find hoccurs)).size = Nat.find hoccurs := by
        have hle := hfound.le_size hsep
        rw [size_eq_length, bytes_take, List.length_take, ← size_eq_length]
        omega
      have hrest : (t.drop (Nat.find hoccurs + sep.size)).size < n := by
        have hle := hfound.le_size hsep
        rw [size_eq_length, bytes_drop, List.length_drop, ← size_eq_length]
        omega
      obtain ⟨pieces, hpieces⟩ := ih _ hrest _ rfl
      rw [hfound.eq_append]
      refine ⟨_, .cut _ ?_ hpieces⟩
      intro i hi
      rw [hsize] at hi
      rw [← hfound.eq_append]
      exact Nat.find_min hoccurs hi
    · exact ⟨[t], .whole t (not_exists.mp hoccurs)⟩

/-- Cutting from an offset on gives the pieces of what is there. -/
theorem CutInto.splitFrom_eq (hsep : 0 < sep.size) {i : Nat} (h : CutInto sep (t.drop i) pieces)
    (done : List Text) : splitFrom t sep hsep i done = done.reverse ++ pieces := by
  generalize hu : t.drop i = u at h
  induction h generalizing i done with
  | whole u hnone =>
    have hfound : t.findFrom sep i = none := by
      rw [Option.eq_none_iff_forall_ne_some]
      intro j hj
      obtain ⟨hij, hoccurs, -⟩ := findFrom_eq_some_iff.mp hj
      apply hnone (j - i)
      rw [← hu, occursAt_drop_iff, Nat.add_sub_cancel' hij]
      exact hoccurs
    rw [splitFrom]
    split
    · rw [hu, List.reverse_cons]
    · simp_all
  | @cut piece rest pieces hfirst hrest ih =>
    have hfound : t.findFrom sep i = some (i + piece.size) := by
      rw [findFrom_eq_some_iff]
      refine ⟨Nat.le_add_right _ _, ?_, ?_⟩
      · rw [← occursAt_drop_iff, hu]
        exact occursAt_append piece rest
      · intro k hik hk
        rw [← Nat.add_sub_cancel' hik, ← occursAt_drop_iff, hu]
        exact hfirst (k - i) (by omega)
    have hbytes : t.bytes.drop i = piece.bytes ++ (sep.bytes ++ rest.bytes) := by
      rw [← bytes_drop, hu, bytes_append, bytes_append]
    have hpiece : t.cut i (i + piece.size) = piece := by
      ext1
      rw [bytes_cut, List.drop_take, Nat.add_sub_cancel_left, hbytes, size_eq_length,
        List.take_left]
    have hdrop : t.drop (i + piece.size + sep.size) = rest := by
      ext1
      rw [bytes_drop, Nat.add_assoc, ← List.drop_drop, hbytes, ← List.drop_drop,
        size_eq_length piece, List.drop_left, size_eq_length, List.drop_left]
    rw [splitFrom]
    split
    · simp_all
    · next j hj =>
      obtain rfl : j = i + piece.size := Option.some.inj (hj.symm.trans hfound)
      rw [hpiece, ih (piece :: done) hdrop, List.reverse_cons, List.append_assoc,
        List.singleton_append]

/-- A text is split into the pieces that it is cut into. -/
theorem cutInto_iff (hsep : 0 < sep.size) : CutInto sep t pieces ↔ pieces = t.split sep := by
  have hsplit {pieces : List Text} (h : CutInto sep t pieces) : t.split sep = pieces := by
    have hdrop : t.drop 0 = t := Text.ext (by rw [bytes_drop, List.drop_zero])
    rw [← hdrop] at h
    rw [split, dif_pos hsep, h.splitFrom_eq hsep, List.reverse_nil, List.nil_append]
  constructor
  · intro h
    exact (hsplit h).symm
  · rintro rfl
    obtain ⟨pieces, hpieces⟩ := exists_cutInto hsep t
    rwa [hsplit hpieces]

/-- No piece has the separator in it: an occurrence within a piece would have been cut at. -/
theorem CutInto.not_within (hsep : 0 < sep.size) (h : CutInto sep t pieces) {piece : Text}
    (hpiece : piece ∈ pieces) : ¬ sep.bytes <:+: piece.bytes := by
  have hoccurs {u : Text} (rest : Text) (hwithin : sep.bytes <:+: u.bytes) :
      ∃ i < u.size, OccursAt (u ++ rest) sep i := by
    obtain ⟨front, back, hbytes⟩ := hwithin
    refine ⟨front.length, ?_, ?_⟩
    · rw [size_eq_length, ← hbytes, List.length_append, List.length_append, ← size_eq_length]
      omega
    · rw [occursAt_iff, bytes_append, ← hbytes, List.append_assoc, List.append_assoc,
        List.drop_left]
      exact List.prefix_append _ _
  intro hwithin
  induction h with
  | whole t hnone =>
    obtain rfl := List.mem_singleton.mp hpiece
    obtain ⟨i, -, hi⟩ := hoccurs empty hwithin
    rw [append_empty] at hi
    exact hnone i hi
  | cut u hfirst _ ih =>
    rcases List.mem_cons.mp hpiece with rfl | hpiece
    · obtain ⟨i, hlt, hi⟩ := hoccurs _ hwithin
      exact hfirst i hlt hi
    · exact ih hpiece

/-- Joining puts the separator between the first two texts. -/
theorem join_cons_cons (sep t u : Text) (ts : List Text) :
    join sep (t :: u :: ts) = t ++ (sep ++ join sep (u :: ts)) := by
  rw [join_cons, join_cons, List.map_cons, concat_cons, append_assoc]

/-- Pieces joined by the separator at which a text was cut are the text. -/
theorem CutInto.join_eq (h : CutInto sep t pieces) : join sep pieces = t := by
  induction h with
  | whole t _ => rfl
  | cut piece _ hrest ih =>
    cases hrest with
    | whole => rw [join_cons_cons, ih]
    | cut => rw [join_cons_cons, ih]

/-- The bytes of texts one behind the other. -/
theorem bytes_concat (ts : List Text) : (concat ts).bytes = ts.flatMap bytes := by
  induction ts with
  | nil => rfl
  | cons t ts ih => rw [concat_cons, bytes_append, ih, List.flatMap_cons]

/-- Joining by nothing puts texts one behind the other. -/
theorem join_empty (ts : List Text) : join empty ts = concat ts := by
  cases ts with
  | nil => rfl
  | cons t ts =>
    have hmap : ts.map (fun u => empty ++ u) = ts := by simp
    rw [join_cons, hmap, concat_cons]

/-- The empty separator takes a text apart into its characters. -/
theorem split_empty (t : Text) : t.split empty = t.characters.map fun c => ofBytes c.bytes :=
  dif_neg (Nat.lt_irrefl 0)

/-- Splitting and joining with the same separator give the text back. -/
theorem join_split (t sep : Text) : join sep (t.split sep) = t := by
  rcases Nat.eq_zero_or_pos sep.size with hzero | hpos
  · obtain rfl : sep = empty := Text.ext (List.eq_nil_of_length_eq_zero hzero)
    ext1
    rw [split_empty, join_empty, bytes_concat, List.flatMap_map]
    exact flatMap_bytes_characters t
  · exact ((cutInto_iff hpos).mpr rfl).join_eq

end Text

open Text Builtin in
/-- Splitting loses nothing. The pieces are cut at the first occurrence of the separator, then at
the first one behind it, and so on, and no piece has the separator in it. An empty separator leaves
one piece for every character and every stray byte, as many as the length says. Joined by the
separator, the pieces are the text again. -/
theorem split_loses_nothing (t sep : Text) (s : Store) :
    let pieces := t.split sep
    let c := s.newArray (pieces.map .string).toArray
    split.Gives [.string t, .string sep] s c ∧
    join.Gives [c.1, .string sep] c.2 (.string t, c.2) ∧
    (sep ≠ empty →
      (∀ ts, CutInto sep t ts ↔ ts = pieces) ∧ ∀ u ∈ pieces, ¬ sep.bytes <:+: u.bytes) ∧
    (sep = empty →
      (∃ cs, Spells t.bytes cs ∧ pieces = cs.map fun c => ofBytes c.bytes) ∧
      length.Gives [.string t] s (.number (.ofNat pieces.length), s) ∧
      length.Gives [c.1] c.2 (.number (.ofNat pieces.length), c.2)) := by
  refine ⟨gives_split s t sep, ?_, ?_, ?_⟩
  · have hgives := gives_join_newArray s sep (t.split sep)
    rwa [join_split] at hgives
  · intro hne
    have hsep : 0 < sep.size := by
      apply Nat.pos_of_ne_zero
      intro hzero
      exact hne (Text.ext (List.eq_nil_of_length_eq_zero hzero))
    constructor
    · intro ts
      exact cutInto_iff hsep
    · intro u hu
      exact ((cutInto_iff hsep).mpr rfl).not_within hsep hu
  · rintro rfl
    have hlength : (t.split empty).length = t.length := by
      rw [split_empty, List.length_map, ← length_eq]
    refine ⟨⟨t.characters, spells_iff.mpr rfl, split_empty t⟩, ?_, ?_⟩
    · rw [hlength]
      exact gives_length_text s t
    · have hgives := gives_length_newArray s ((t.split empty).map .string).toArray
      rwa [List.size_toArray, List.length_map] at hgives

/-- Occurrences that overlap the one before are not cut at, and a stray byte is a piece of its
own. -/
theorem split_loses_nothing_overlapping :
    (("aa" : Text) ≠ .empty ∧ Text.split "aaaaa" "aa" = ["", "", "a"]) ∧
    ∃ cs, Text.Spells [0x61, 0xFF] cs ∧
      Text.split (.ofBytes [0x61, 0xFF]) .empty = cs.map fun c => .ofBytes c.bytes := by
  have hlast : ∀ i, ¬ Text.OccursAt "a" "aa" i := by
    intro i hi
    have hle := hi.le_size (by decide)
    have hsize : Text.size "a" = 1 ∧ Text.size "aa" = 2 := by decide
    omega
  have hcut : Text.CutInto "aa" "aaaaa" ["", "", "a"] :=
    .cut "" (by decide) (.cut "" (by decide) (.whole "a" hlast))
  refine ⟨⟨by decide, ?_⟩, ?_⟩
  · exact (((split_loses_nothing "aaaaa" "aa" default).2.2.1 (by decide)).1 _).mp hcut |>.symm
  · exact ((split_loses_nothing (.ofBytes [0x61, 0xFF]) .empty default).2.2.2 rfl).1

end TinyScript
