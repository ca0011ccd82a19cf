import TinyScript.Proofs.Clamping
import TinyScript.Proofs.Splitting

/-!
# Parts of arrays and texts

A slice is the contiguous part between two positions. Positions of a text count its characters, and
positions of an array its elements. So taking parts of a text and taking parts of the array of its
characters are the same, wherever the positions are.
-/

namespace TinyScript

open Binary64 Builtin

variable {s : Store}

/-- Zero is the first position. -/
theorem Number.clamp_zero (n : ℕ) (fromEnd : Bool) : clamp 0 n fromEnd = 0 := by
  apply clamp_natCast _ (Nat.zero_le n)
  exact_mod_cast value?_zero

/-- A slice from the first position ends where its bound says. -/
theorem Number.sliceEnd_zero (k : Float) (n : ℕ) : sliceEnd 0 (some k) n = clamp k n true := by
  rw [sliceEnd, clamp_zero]
  exact Nat.zero_max _

/-- A slice without a second bound ends behind the last thing. -/
theorem Number.sliceEnd_none (k : Float) (n : ℕ) : sliceEnd k none n = n :=
  max_eq_right (clamp_le k n true)

/-- A slice up to a position and the slice from it on are the array. Making the first one does not
touch the array, even if that is not in the store. -/
theorem slices_array (s : Store) (r : ArrayRef) (k : Float) : ∃ (a b : ArrayRef) (s' s'' : Store),
    slice.Gives [.array r, .number 0, .number k] s (.array a, s') ∧
    slice.Gives [.array r, .number k] s' (.array b, s'') ∧
    s''.items a ++ s''.items b = s.items r := by
  have hfront := gives_slice_array s r 0 (some k)
  rw [Number.clamp_zero, Number.sliceEnd_zero] at hfront
  generalize hplace : Number.clamp k (s.items r).size true = i at hfront
  have hitems : (s.newArray ((s.items r).extract 0 i)).2.items r = s.items r := by
    apply Store.items_newArray
    rcases Nat.lt_or_ge r s.arrays.size with hr | hr
    · exact Or.inl hr
    · exact Or.inr (by rw [Store.items_of_size_le hr, Array.extract_empty])
  have hback := gives_slice_array (s.newArray ((s.items r).extract 0 i)).2 r k none
  rw [hitems, Number.sliceEnd_none, hplace] at hback
  have hsize : s.arrays.size < (s.newArray ((s.items r).extract 0 i)).2.arrays.size := by
    simp [Store.newArray]
  refine ⟨s.arrays.size, _, _, ((s.newArray _).2.newArray _).2, hfront, hback, ?_⟩
  rw [Store.items_newArray_self, Store.items_newArray (Or.inl hsize), Store.items_newArray_self,
    Array.extract_append_extract]
  have hle := Number.clamp_le k (s.items r).size true
  simp only [Nat.zero_min, max_eq_right (hplace ▸ hle), Array.extract_size]

/-- A slice of a string has its characters between two positions. -/
theorem gives_slice_string (s : Store) (t : String) (x : Float) (stop : Option Float) :
    slice.Gives (partOf (.string t) x stop) s
      (.string (.ofChars ((t.toList.take (Number.sliceEnd x stop t.length)).drop
        (Number.clamp x t.length true))), s) := by
  have hgives := gives_slice_text s t x stop
  rwa [Text.chars_ofString, Text.length_ofString] at hgives

/-- A slice up to a position and the slice from it on are the string. -/
theorem slices_string (s : Store) (t : String) (k : Float) : ∃ u v : Text,
    slice.Gives [.string t, .number 0, .number k] s (.string u, s) ∧
    slice.Gives [.string t, .number k] s (.string v, s) ∧
    concat.Gives [.string u, .string v] s (.string t, s) := by
  have hfront := gives_slice_string s t 0 (some k)
  have hback := gives_slice_string s t k none
  rw [Number.clamp_zero, Number.sliceEnd_zero, List.drop_zero] at hfront
  rw [Number.sliceEnd_none, ← String.length_toList, List.take_length,
    String.length_toList] at hback
  refine ⟨_, _, hfront, hback, ?_⟩
  have hconcat := gives_concat s (.ofChars (t.toList.take (Number.clamp k t.length true)))
    (.ofChars (t.toList.drop (Number.clamp k t.length true)))
  rwa [Text.ofChars_append, List.take_append_drop, ← Text.ofString_eq_ofChars] at hconcat

/-- A number names a position by its integer part: a place from the front, at most the end, or from
the end if it is negative and that is asked for. Infinities name the ends, and NaN the front. Below
`2 ^ 53` things, doubles are exact enough to compute it. A slice is the part between two such
positions, so that a slice up to a position and the slice from it on are the whole, be it an array
or a string. -/
theorem slices_partition :
    (∀ (x : Float) (n : ℕ) (fromEnd : Bool),
      Number.clamp x n fromEnd ≤ n ∧
      (x.isNaN = true ∧ Number.clamp x n fromEnd = 0 ∨
        x = infinity .positive ∧ Number.clamp x n fromEnd = n ∨
        x = infinity .negative ∧ Number.clamp x n fromEnd = 0 ∨
        ∃ q, value? x = some q ∧ (Number.clamp x n fromEnd : ℤ) =
          if 0 ≤ towardsZero q then min (towardsZero q) n
          else if fromEnd then max 0 (n + towardsZero q)
          else 0) ∧
      (n < 2 ^ 53 → Number.clampByDoubles x n fromEnd = Number.clamp x n fromEnd)) ∧
    (∀ (s : Store) (r : ArrayRef) (k : Float), ∃ (a b : ArrayRef) (s' s'' : Store),
      slice.Gives [.array r, .number 0, .number k] s (.array a, s') ∧
      slice.Gives [.array r, .number k] s' (.array b, s'') ∧
      s''.items a ++ s''.items b = s.items r) ∧
    (∀ (s : Store) (t : String) (k : Float), ∃ u v : Text,
      slice.Gives [.string t, .number 0, .number k] s (.string u, s) ∧
      slice.Gives [.string t, .number k] s (.string v, s) ∧
      concat.Gives [.string u, .string v] s (.string t, s)) ∧
    (∀ (s : Store) (r : ArrayRef) (x y : Float),
      let n := (s.items r).size
      let first := Number.clamp x n true
      slice.Gives [.array r, .number x, .number y] s
        (s.newArray ((s.items r).extract first (max first (Number.clamp y n true)))) ∧
      slice.Gives [.array r, .number x] s (s.newArray ((s.items r).extract first n))) ∧
    (∀ (s : Store) (t : String) (x y : Float),
      let n := t.length
      let first := Number.clamp x n true
      slice.Gives [.string t, .number x, .number y] s
        (.string (.ofChars ((t.toList.take (max first (Number.clamp y n true))).drop first)), s) ∧
      slice.Gives [.string t, .number x] s (.string (.ofChars (t.toList.drop first)), s)) := by
  refine ⟨?_, slices_array, slices_string, ?_, ?_⟩
  · intro x n fromEnd
    refine ⟨Number.clamp_le x n fromEnd, ?_, fun hn => Number.clampByDoubles_eq hn⟩
    rcases double_cases x with hnan | ⟨s, rfl⟩ | ⟨q, hq⟩
    · exact Or.inl ⟨hnan, Number.clamp_of_isNaN hnan⟩
    · cases s with
      | positive => exact Or.inr (Or.inl ⟨rfl, Number.clamp_infinity⟩)
      | negative => exact Or.inr (Or.inr (Or.inl ⟨rfl, Number.clamp_negInfinity⟩))
    · refine Or.inr (Or.inr (Or.inr ⟨q, hq, ?_⟩))
      rw [Number.clamp_of_value? hq]
      split_ifs <;> omega
  · intro s r x y
    refine ⟨gives_slice_array s r x (some y), ?_⟩
    have hgives := gives_slice_array s r x none
    rwa [Number.sliceEnd_none] at hgives
  · intro s t x y
    refine ⟨gives_slice_string s t x (some y), ?_⟩
    have hgives := gives_slice_string s t x none
    rwa [Number.sliceEnd_none, ← String.length_toList, List.take_length] at hgives

/-- Two and a half places from the end of five things. -/
theorem slices_partition_fraction :
    5 < 2 ^ 53 ∧ Number.clampByDoubles (-2.5) 5 true = 3 := by
  refine ⟨by decide, ?_⟩
  rw [(slices_partition.1 (-2.5) 5 true).2.2 (by decide)]
  decide

/-- A slice of an array of texts, joined. -/
theorem gives_join_slice (s : Store) (ts : List Text) (sep : Text) (x : Float)
    (stop : Option Float) :
    let c := s.newArray (ts.map .string).toArray
    ∃ d, slice.Gives (partOf c.1 x stop) c.2 d ∧
      join.Gives [d.1, .string sep] d.2
        (.string (Text.join sep ((ts.take (Number.sliceEnd x stop ts.length)).drop
          (Number.clamp x ts.length true))), d.2) := by
  intro c
  have hslice := gives_slice_array c.2 s.arrays.size x stop
  have hitems : c.2.items s.arrays.size = (ts.map .string).toArray := Store.items_newArray_self s _
  have hextract (i j : ℕ) : (ts.map Value.string).toArray.extract i j =
      (((ts.take j).drop i).map Value.string).toArray := by
    rw [List.extract_toArray, List.extract_eq_take_drop, List.map_drop, List.map_take,
      List.drop_take]
  have hsize : (ts.map Value.string).toArray.size = ts.length := by
    rw [List.size_toArray, List.length_map]
  rw [hitems, hextract, hsize] at hslice
  exact ⟨_, hslice, gives_join_newArray c.2 sep _⟩

/-- The empty separator takes a string apart into its characters. -/
theorem Text.split_ofString (t : String) :
    split (ofString t) "" = t.toList.map fun c => ofChars [c] := by
  have hpiece (c : Char) : ofBytes (Character.scalar c).bytes = ofChars [c] := by
    ext1
    simp [Character.bytes]
  rw [ofString_empty, split_empty, ofString_eq_ofChars, characters_ofChars, List.map_map]
  exact List.map_congr_left fun c _ => hpiece c

/-- Single characters joined by nothing are the text of them all. -/
theorem Text.join_singletons (cs : List Char) :
    join "" (cs.map fun c => ofChars [c]) = ofChars cs := by
  ext1
  rw [ofString_empty, join_empty, bytes_concat, List.flatMap_map]
  simp [encode]

section Places

variable {t : String} {i j : ℕ} {x y : Float}

/-- A substring of a string has its characters from one place to another. -/
theorem gives_substring_string (hx : value? x = some (i : ℚ)) (hy : value? y = some (j : ℚ))
    (hij : i ≤ j) (hj : j ≤ t.length) : substring.Gives [.string t, .number x, .number y] s
      (.string (.ofChars ((t.toList.take j).drop i)), s) := by
  have hfirst : Number.clamp x (Text.length t) false = i := by
    rw [Text.length_ofString, Number.clamp_natCast hx (hij.trans hj)]
  have hstop : Number.clamp y (Text.length t) false = j := by
    rw [Text.length_ofString, Number.clamp_natCast hy hj]
  have hgives := (gives_substring s (hfirst.trans_le (hij.trans_eq hstop.symm))).1
  rwa [hfirst, hstop, Text.chars_ofString] at hgives

/-- The part of length one at a place is the character there. -/
theorem take_succ_drop {cs : List Char} (hi : i < cs.length) :
    (cs.take (i + 1)).drop i = [cs[i]] := by
  rw [List.drop_take, Nat.add_sub_cancel_left, List.take_one_drop_eq_of_lt_length hi]
  rfl

/-- The character of a string at an index is the one that stands there. -/
theorem gives_charAt_string (hx : value? x = some (i : ℚ)) (hi : i < t.toList.length) :
    charAt.Gives [.string t, .number x] s (.string (.ofChars [t.toList[i]]), s) := by
  have hlength : i < Text.length t := by rwa [Text.length_ofString, ← String.length_toList]
  have htruncate (least most : ℤ) : Number.truncate least most x = i := by
    rw [truncate_eq hx]
    exact_mod_cast towardsZero_intCast i
  have hgives := gives_charAt s (isNaN_of_value? hx) (htruncate _ _) hlength
  rwa [Text.chars_ofString, take_succ_drop hi] at hgives

/-- The element of a new array at an index is the one that it was made with. -/
theorem gives_element_newArray {items : Array Value} {v : Value} (hx : value? x = some (i : ℚ))
    (hv : items[i]? = some v) : element.Gives [(s.newArray items).1, .number x]
      (s.newArray items).2 (v, (s.newArray items).2) := by
  apply gives_element (toIndex?_eq_some (by exact_mod_cast hx))
  rwa [Store.items_newArray_self]

/-- The next place, computed with doubles. -/
theorem value?_add_one (hx : value? x = some (i : ℚ)) (hi : i < 2 ^ 53) :
    value? (x + 1) = some ((i + 1 : ℕ) : ℚ) :=
  value?_add_natCast hx (value?_ofNat (by decide : 1 ≤ 2 ^ 53)) (by push_cast; rfl) hi

end Places

/-- A string behaves like the array of its characters. The two have the same length. A slice of the
string is the slice of the array joined, for any positions. The character at a place is the element
there and the substring from there to the next place. Where a substring begins and ends may be given
in either order. -/
theorem string_as_characters (t : String) (s : Store) :
    let c := s.newArray (t.toList.map fun ch => Value.string (.ofChars [ch])).toArray
    split.Gives [.string t, .string ""] s c ∧
    (length.Gives [.string t] s (.number (.ofNat t.length), s) ∧
      length.Gives [c.1] c.2 (.number (.ofNat t.length), c.2)) ∧
    (∀ a b : Float, ∃ v d, slice.Gives [.string t, .number a, .number b] s (v, s) ∧
      slice.Gives [c.1, .number a, .number b] c.2 d ∧ join.Gives [d.1, .string ""] d.2 (v, d.2)) ∧
    (∀ a : Float, ∃ v d, slice.Gives [.string t, .number a] s (v, s) ∧
      slice.Gives [c.1, .number a] c.2 d ∧ join.Gives [d.1, .string ""] d.2 (v, d.2)) ∧
    (∀ i < t.length, ∃ v, ∀ x, value? x = some (i : ℚ) →
      charAt.Gives [.string t, .number x] s (v, s) ∧
      element.Gives [c.1, .number x] c.2 (v, c.2) ∧
      (∀ y, value? y = some (i + 1 : ℚ) →
        substring.Gives [.string t, .number x, .number y] s (v, s)) ∧
      (i < 2 ^ 53 → substring.Gives [.string t, .number x, .number (x + 1)] s (v, s))) ∧
    (∀ a b : Float, ∃ v, substring.Gives [.string t, .number a, .number b] s (v, s) ∧
      substring.Gives [.string t, .number b, .number a] s (v, s)) := by
  have hpieces : (t.toList.map fun ch => Value.string (.ofChars [ch])) =
      (t.toList.map fun ch => Text.ofChars [ch]).map .string := by rw [List.map_map]; rfl
  have hslice (a : Float) (stop : Option Float) :
      let c := s.newArray (t.toList.map fun ch => Value.string (.ofChars [ch])).toArray
      ∃ v d, slice.Gives (partOf (.string t) a stop) s (v, s) ∧
        slice.Gives (partOf c.1 a stop) c.2 d ∧ join.Gives [d.1, .string ""] d.2 (v, d.2) := by
    obtain ⟨d, hd, hjoin⟩ := gives_join_slice s (t.toList.map fun ch => .ofChars [ch]) "" a stop
    rw [← List.map_take, ← List.map_drop, Text.join_singletons, List.length_map,
      String.length_toList] at hjoin
    rw [hpieces]
    exact ⟨_, d, gives_slice_string s t a stop, hd, hjoin⟩
  refine ⟨?_, ⟨?_, ?_⟩, fun a b => hslice a (some b), fun a => hslice a none, ?_, ?_⟩
  · have hgives := gives_split s t ""
    rwa [Text.split_ofString, ← hpieces] at hgives
  · have hgives := gives_length_text s t
    rwa [Text.length_ofString] at hgives
  · have hgives := gives_length_newArray s
      (t.toList.map fun ch => Value.string (.ofChars [ch])).toArray
    rwa [List.size_toArray, List.length_map, String.length_toList] at hgives
  · intro i hi
    have hi' : i < t.toList.length := by rwa [String.length_toList]
    refine ⟨.string (.ofChars [t.toList[i]]), fun x hx => ?_⟩
    have hsubstring {y : Float} (hy : value? y = some ((i + 1 : ℕ) : ℚ)) :=
      gives_substring_string (s := s) hx hy (Nat.le_succ i) hi
    rw [take_succ_drop hi'] at hsubstring
    have helement : (t.toList.map fun ch => Value.string (.ofChars [ch])).toArray[i]? =
        some (.string (.ofChars [t.toList[i]])) := by
      rw [List.getElem?_toArray, List.getElem?_map, List.getElem?_eq_getElem hi', Option.map_some]
    refine ⟨gives_charAt_string hx hi', gives_element_newArray hx helement, ?_, ?_⟩
    · intro y hy
      exact hsubstring (by exact_mod_cast hy)
    · intro hbound
      exact hsubstring (value?_add_one hx hbound)
  · intro a b
    rcases le_total (Number.clamp a (Text.length t) false) (Number.clamp b (Text.length t) false)
      with hle | hle
    · exact ⟨_, gives_substring s hle⟩
    · exact ⟨_, (gives_substring s hle).symm⟩

/-- The last character of a string with characters of one, two, three and four bytes. -/
theorem string_as_characters_wide :
    3 < "aé€😀".length ∧ value? 3 = some 3 ∧ value? 4 = some (3 + 1) ∧ ∃ v,
      charAt.Gives [.string "aé€😀", .number 3] default (v, default) ∧
      substring.Gives [.string "aé€😀", .number 3, .number 4] default (v, default) := by
  have hthree : value? 3 = some ((3 : ℕ) : ℚ) := value?_ofNat (by decide)
  have hfour : value? 4 = some ((3 : ℕ) + 1 : ℚ) := by
    have hvalue : value? 4 = some ((4 : ℕ) : ℚ) := value?_ofNat (by decide)
    rw [hvalue]
    norm_num
  obtain ⟨v, hv⟩ := (string_as_characters "aé€😀" default).2.2.2.2.1 3 (by decide)
  obtain ⟨hcharAt, -, hsubstring, -⟩ := hv 3 hthree
  exact ⟨by decide, hthree, hfour, v, hcharAt, hsubstring 4 hfour⟩

end TinyScript
