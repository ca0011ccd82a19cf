import TinyScript.Proofs.Slices

/-!
# Searching strings and arrays

A text is sought bytewise, and the offset of the first occurrence is turned into a number of
characters. For strings this is the same as seeking characters: a byte that begins a character is
none that continues one, so the bytes of a string are found only where its characters are.
-/

namespace TinyScript

open Binary64 Builtin

/-- The first place with a property, if there is one. -/
def IsFirst (P : ℕ → Prop) : Option ℕ → Prop
  | some i => P i ∧ ∀ j < i, ¬ P j
  | none => ∀ i, ¬ P i

/-- A place that is found exactly if it is the first with a property is the first one. -/
theorem isFirst_of_iff {P : ℕ → Prop} {found : Option ℕ}
    (h : ∀ i, found = some i ↔ P i ∧ ∀ j < i, ¬ P j) : IsFirst P found := by
  classical
  cases found with
  | some i => exact (h i).mp rfl
  | none =>
    intro i hi
    have hexists : ∃ i, P i := ⟨i, hi⟩
    have hfound := (h (Nat.find hexists)).mpr ⟨Nat.find_spec hexists, fun j => Nat.find_min hexists⟩
    cases hfound

/-- There is one first place. -/
theorem IsFirst.unique {P : ℕ → Prop} {found found' : Option ℕ} (h : IsFirst P found)
    (h' : IsFirst P found') : found = found' := by
  cases found with
  | none =>
    cases found' with
    | none => rfl
    | some i => exact absurd h'.1 (h i)
  | some i =>
    cases found' with
    | none => exact absurd h.1 (h' i)
    | some j =>
      rcases lt_trichotomy i j with hlt | rfl | hlt
      · exact absurd h.1 (h'.2 i hlt)
      · rfl
      · exact absurd h'.1 (h.2 j hlt)

/-- Seeking a text finds its first occurrence. -/
theorem Text.isFirst_find? (t needle : Text) : IsFirst (OccursAt t needle) (t.find? needle) := by
  apply isFirst_of_iff
  intro i
  rw [find?, findFrom_eq_some_iff]
  simp

/-- A string occurs where its bytes stand. -/
theorem Text.occursAt_ofString_iff {h n : String} {p : ℕ} :
    OccursAt h n p ↔ encode n.toList <+: (encode h.toList).drop p := by
  rw [occursAt_iff, ofString_eq_ofChars, ofString_eq_ofChars, bytes_ofChars, bytes_ofChars]

/-- More characters take more bytes. -/
theorem Text.length_encode_take_lt {cs : List Char} {i j : ℕ} (hij : i < j) (hj : j ≤ cs.length) :
    (encode (cs.take i)).length < (encode (cs.take j)).length := by
  have hpos : 0 < (encode ((cs.take j).drop i)).length := by
    have hne : (cs.take j).drop i ≠ [] := by
      rw [ne_eq, List.drop_eq_nil_iff, List.length_take]
      omega
    obtain ⟨c, rest, hcons⟩ := List.exists_cons_of_ne_nil hne
    rw [hcons, encode_cons, List.length_append, String.length_utf8EncodeChar]
    have hwidth := c.utf8Size_pos
    omega
  rw [encode_take_drop (cs.take j) i, List.take_take, min_eq_left hij.le, List.length_append]
  omega

/-- The first occurrence of a string in another is behind a number of characters, which is the first
place where the characters of the one begin those of the other. What has no characters is found in
front. -/
theorem Text.isFirst_of_find? {h n : String} {p : ℕ} (hfind : find? h n = some p) :
    ∃ i ≤ h.toList.length, p = (encode (h.toList.take i)).length ∧
      IsFirst (fun i => n.toList <+: h.toList.drop i) (some i) := by
  have hfirst := isFirst_find? h n
  rw [hfind] at hfirst
  obtain ⟨hoccurs, hbefore⟩ := hfirst
  rw [occursAt_ofString_iff] at hoccurs
  rcases eq_or_ne n.toList [] with hempty | hne
  · have hp : p = 0 := by
      by_contra hp
      apply hbefore 0 (Nat.pos_of_ne_zero hp)
      rw [occursAt_ofString_iff, hempty]
      exact List.nil_prefix
    refine ⟨0, Nat.zero_le _, hp, ?_, ?_⟩
    · rw [hempty]
      exact List.nil_prefix
    · intro j hj
      exact absurd hj (Nat.not_lt_zero j)
  · obtain ⟨i, rfl, hi⟩ := (encode_prefix_drop_iff hne).mp hoccurs
    have hle : i ≤ h.toList.length := by
      by_contra hlt
      rw [List.drop_eq_nil_of_le (by omega)] at hi
      exact hne (List.prefix_nil.mp hi)
    refine ⟨i, hle, rfl, hi, ?_⟩
    intro j hj hbegins
    apply hbefore _ (length_encode_take_lt hj hle)
    rw [occursAt_ofString_iff, drop_encode, encode_prefix_iff]
    exact hbegins

/-- A text that does not occur has no position. -/
theorem Builtin.position?_text_none {b : Builtin} {s : Store} {t n : Text}
    (h : t.find? n = none) : position? b s [.string t, .string n] = .ok none := by
  simp [position?, argument, Value.toText, h, bind, Except.bind, pure, Except.pure]

/-- The position of a text counts the characters in front of it. -/
theorem Builtin.position?_text_some {b : Builtin} {s : Store} {t n : Text} {p : ℕ}
    (h : t.find? n = some p) (hp : p ≤ t.size) :
    position? b s [.string t, .string n] = .ok (some (t.take p).length) := by
  simp [position?, argument, Value.toText, h, bind, Except.bind, pure, Except.pure, lengthBefore,
    hp]

/-- A string is sought by characters. -/
theorem exists_position_string (s : Store) (h n : String) : ∃ found,
    IsFirst (fun i => n.toList <+: h.toList.drop i) found ∧
      ∀ b, position? b s [.string h, .string n] = .ok found := by
  cases hfind : Text.find? h n with
  | none =>
    refine ⟨none, ?_, fun b => position?_text_none hfind⟩
    intro i hi
    have hfirst := Text.isFirst_find? h n
    rw [hfind] at hfirst
    apply hfirst (Text.encode (h.toList.take i)).length
    rw [Text.occursAt_ofString_iff, Text.drop_encode, Text.encode_prefix_iff]
    exact hi
  | some p =>
    obtain ⟨i, hle, rfl, hfirst⟩ := Text.isFirst_of_find? hfind
    refine ⟨some i, hfirst, fun b => ?_⟩
    have htake : Text.take h (Text.encode (h.toList.take i)).length =
        .ofChars (h.toList.take i) := by
      rw [Text.ofString_eq_ofChars]
      exact Text.ext (by rw [Text.bytes_take, Text.bytes_ofChars, Text.take_encode,
        Text.bytes_ofChars])
    have hsize : (Text.encode (h.toList.take i)).length ≤ Text.size h := by
      rw [Text.ofString_eq_ofChars, Text.size_eq_length, Text.bytes_ofChars,
        Text.encode_take_drop h.toList i, List.length_append]
      exact Nat.le_add_right _ _
    rw [position?_text_some hfind hsize, htake, Text.length_ofChars, List.length_take,
      min_eq_left hle]

/-- Seeking one value in another gives the number of a place, or minus one if there is none. The
other is included if that number is at least zero, which is if there is a place. -/
structure Finds (s : Store) (haystack needle : Value) (found : Option ℕ) : Prop where
  indexOf : indexOf.Gives [haystack, needle] s (.number (found.elim (-1) Float.ofNat), s)
  includes : includes.Gives [haystack, needle] s (.boolean found.isSome, s)
  greaterEqual : greaterEqual.Gives [.number (found.elim (-1) Float.ofNat), .number 0] s
    (.boolean found.isSome, s)

/-- What both builtins find follows from the position that they look for. -/
theorem finds_of_position? {s : Store} {v w : Value} {found : Option ℕ}
    (h : ∀ b, position? b s [v, w] = .ok found) : Finds s v w found where
  indexOf := gives_indexOf (h .indexOf)
  includes := gives_includes (h .includes)
  greaterEqual := by
    have hgives := gives_greaterEqual s (found.elim (-1) Float.ofNat) 0
    have hsome : (!decide (found.elim (-1) Float.ofNat < 0)) = found.isSome := by
      cases found with
      | none => decide
      | some i => simp [not_ofNat_lt_zero]
    rwa [hsome] at hgives

/-- The test for equality gives true exactly for values that are the same. -/
theorem gives_equal_true_iff {s : Store} {v w : Value} :
    equal.Gives [v, w] s (.boolean true, s) ↔ v.same w = true := by
  constructor
  · intro h
    have hunique := h.unique (gives_equal s v w)
    simp only [Prod.mk.injEq, Value.boolean.injEq] at hunique
    exact hunique.1.symm
  · intro h
    have hgives := gives_equal s v w
    rwa [h] at hgives

/-- A value is sought among the elements of an array. -/
theorem isFirst_findIdx? (s : Store) (items : Array Value) (v : Value) :
    IsFirst (fun i => ∃ w, items[i]? = some w ∧ equal.Gives [w, v] s (.boolean true, s))
      (items.findIdx? fun w => w.same v) := by
  apply isFirst_of_iff
  intro i
  simp only [gives_equal_true_iff]
  rw [Array.findIdx?_eq_some_iff_getElem]
  constructor
  · rintro ⟨hi, hsame, hbefore⟩
    refine ⟨⟨items[i], Array.getElem?_eq_getElem hi, hsame⟩, ?_⟩
    rintro j hj ⟨w, hw, hw'⟩
    obtain ⟨hlt, rfl⟩ := Array.getElem?_eq_some_iff.mp hw
    exact hbefore j hj hw'
  · rintro ⟨⟨w, hw, hsame⟩, hbefore⟩
    obtain ⟨hi, rfl⟩ := Array.getElem?_eq_some_iff.mp hw
    refine ⟨hi, hsame, ?_⟩
    intro j hj hj'
    exact hbefore j hj ⟨_, Array.getElem?_eq_getElem (hj.trans hi), hj'⟩

/-- What is found first lies within the string. -/
theorem add_length_le_of_isFirst {cs ds : List Char} {i : ℕ}
    (h : IsFirst (fun i => ds <+: cs.drop i) (some i)) : i + ds.length ≤ cs.length := by
  obtain ⟨hbegins, hbefore⟩ := h
  have hlength := hbegins.length_le
  rw [List.length_drop] at hlength
  by_contra hlt
  have hempty : ds = [] := List.eq_nil_of_length_eq_zero (by omega)
  subst hempty
  exact hbefore 0 (by simp at hlt; omega) List.nil_prefix

/-- What is found is the part of the string from its place on. -/
theorem gives_substring_of_isFirst {s : Store} {h n : String} {i : ℕ} {a b : Float}
    (hfirst : IsFirst (fun i => n.toList <+: h.toList.drop i) (some i))
    (ha : value? a = some (i : ℚ)) (hb : value? b = some ((i + n.length : ℕ) : ℚ)) :
    substring.Gives [.string h, .number a, .number b] s (.string n, s) := by
  have hle := add_length_le_of_isFirst hfirst
  rw [String.length_toList, String.length_toList] at hle
  have hpart : (h.toList.take (i + n.length)).drop i = n.toList := by
    rw [List.drop_take, Nat.add_sub_cancel_left, ← String.length_toList]
    exact (List.prefix_iff_eq_take.mp hfirst.1).symm
  have hgives := gives_substring_string (s := s) ha hb (Nat.le_add_right _ _) hle
  rwa [hpart, ← Text.ofString_eq_ofChars] at hgives

/-- Seeking finds the first place. In a string this is the least number of characters behind which
those of the other string follow, and what stands there is the other string. In an array it is the
least place of an element that is equal to the value sought. Minus one says that there is no such
place. -/
theorem search_finds_first (s : Store) :
    (∀ h n : String, ∃ found,
      IsFirst (fun i => n.toList <+: h.toList.drop i) found ∧
      Finds s (.string h) (.string n) found ∧
      length.Gives [.string n] s (.number (.ofNat n.length), s) ∧
      ∀ i, found = some i →
        (∀ a b, value? a = some (i : ℚ) → value? b = some (i + n.length : ℚ) →
          substring.Gives [.string h, .number a, .number b] s (.string n, s)) ∧
        (h.length ≤ 2 ^ 53 → substring.Gives
          [.string h, .number (.ofNat i), .number (.ofNat i + .ofNat n.length)] s (.string n, s))) ∧
    (∀ (r : ArrayRef) (v : Value), ∃ found,
      IsFirst (fun i => ∃ w, (s.items r)[i]? = some w ∧ equal.Gives [w, v] s (.boolean true, s))
        found ∧ Finds s (.array r) v found) ∧
    (∀ (r : ArrayRef) (i : ℕ) (w : Value) (x : Float), (s.items r)[i]? = some w →
      value? x = some (i : ℚ) → element.Gives [.array r, .number x] s (w, s)) := by
  refine ⟨?_, ?_, ?_⟩
  · intro h n
    obtain ⟨found, hfirst, hposition⟩ := exists_position_string s h n
    have hlength := gives_length_text s n
    rw [Text.length_ofString] at hlength
    refine ⟨found, hfirst, finds_of_position? hposition, hlength, ?_⟩
    rintro i rfl
    constructor
    · intro a b ha hb
      exact gives_substring_of_isFirst hfirst ha (by exact_mod_cast hb)
    · intro hbound
      have hle := add_length_le_of_isFirst hfirst
      rw [String.length_toList, String.length_toList] at hle
      have hi : value? (.ofNat i) = some (i : ℚ) := value?_ofNat (by omega)
      have hn : value? (.ofNat n.length) = some (n.length : ℚ) := value?_ofNat (by omega)
      refine gives_substring_of_isFirst hfirst hi (value?_add_natCast hi hn ?_ (by omega))
      push_cast
      rfl
  · intro r v
    exact ⟨_, isFirst_findIdx? s (s.items r) v, finds_of_position? fun b => rfl⟩
  · intro r i w x hw hx
    exact gives_element (toIndex?_eq_some (by exact_mod_cast hx)) hw

/-- A character of three bytes behind one of two, and an element behind an equal one. -/
theorem search_finds_first_wide :
    (value? 2 = some 2 ∧ value? 3 = some (2 + "€".length : ℚ) ∧
      Finds default (.string "aé€") (.string "€") (some 2) ∧
      substring.Gives [.string "aé€", .number 2, .number 3] default (.string "€", default)) ∧
    ((Store.newArray default #[.number 7, .number 7]).2.items 0)[1]? = some (.number 7) ∧
      element.Gives [.array 0, .number 1] (Store.newArray default #[.number 7, .number 7]).2
        (.number 7, (Store.newArray default #[.number 7, .number 7]).2) := by
  have hplace : IsFirst (fun i => "€".toList <+: "aé€".toList.drop i) (some 2) :=
    ⟨by decide, by decide⟩
  have hone : value? 1 = some ((1 : ℕ) : ℚ) := value?_ofNat (by decide)
  have htwo : value? 2 = some ((2 : ℕ) : ℚ) := value?_ofNat (by decide)
  have hthree : value? 3 = some ((3 : ℕ) : ℚ) := value?_ofNat (by decide)
  have hstop : ((3 : ℕ) : ℚ) = (2 : ℕ) + "€".length := by
    rw [show "€".length = 1 by decide]
    norm_num
  rw [hstop] at hthree
  have hsecond : ((Store.newArray default #[.number 7, .number 7]).2.items 0)[1]? =
      some (.number 7) := by decide
  constructor
  · obtain ⟨found, hfirst, hfinds, -, hsubstring⟩ :=
      (search_finds_first default).1 "aé€" "€"
    obtain rfl := hfirst.unique hplace
    exact ⟨htwo, hthree, hfinds, (hsubstring 2 rfl).1 2 3 htwo hthree⟩
  · exact ⟨hsecond, (search_finds_first _).2.2 0 1 _ 1 hsecond hone⟩

end TinyScript
