import Mathlib.Data.List.Forall2
import TinyScript.Text.Character

/-!
# Characters and their bytes

Some bytes begin with a character exactly if they begin with its UTF-8 form, so reading takes a
text apart into characters in the only way there is: a byte is set apart as a stray only where no
character begins. The bytes of the characters make up the text again, and the characters of a
string are those that it has.

A byte that can begin a character does not stand inside of one. Hence the bytes of some characters
are found among those of others only where the characters themselves are.
-/

namespace TinyScript

namespace Character

/-- The payload of a byte is its last six bits. -/
theorem payload_eq (b : UInt8) : payload b = b.toNat % 64 := by
  rw [payload, UInt8.toNat_and]
  exact Nat.and_two_pow_sub_one_eq_mod b.toNat 6

/-- The bytes that continue a character are those from 128 to 191. -/
theorem isContinuation_iff (b : UInt8) :
    isContinuation b = true ↔ 128 ≤ b.toNat ∧ b.toNat < 192 := by
  have hall : ∀ n : Fin 256, isContinuation (UInt8.ofNat n) = true ↔ 128 ≤ n.val ∧ n.val < 192 := by
    decide +kernel
  simpa using hall ⟨b.toNat, b.toNat_lt⟩

/-- The bits of a first byte that belong to the code point. -/
theorem toNat_and_mask (a : UInt8) :
    (a &&& 0x1F).toNat = a.toNat % 32 ∧ (a &&& 0x0F).toNat = a.toNat % 16 ∧
      (a &&& 0x07).toNat = a.toNat % 8 := by
  simp only [UInt8.toNat_and]
  exact ⟨Nat.and_two_pow_sub_one_eq_mod _ 5, Nat.and_two_pow_sub_one_eq_mod _ 4,
    Nat.and_two_pow_sub_one_eq_mod _ 3⟩

/-- A number is the code point of a character exactly if there is such a character and the number is
not below the least one that its length in bytes allows. -/
theorem ofCodePoint?_eq_some_iff {least value : Nat} {c : Char} :
    ofCodePoint? least value = some c ↔ least ≤ value ∧ c.toNat = value := by
  unfold ofCodePoint?
  constructor
  · intro h
    split at h
    · next hv =>
      cases h
      exact ⟨hv.1, toNat_ofNat hv.2⟩
    · cases h
  · rintro ⟨hle, rfl⟩
    rw [if_pos ⟨hle, c.valid⟩, Char.ofNat_toNat]

/-- What four bytes are like that begin with a character: its width is told by the first of them,
and no code point has a form that is longer than it needs. -/
theorem decodeFour?_eq_some_iff {a b c d : UInt8} {ch : Char} :
    decodeFour? a b c d = some ch ↔
      (a.toNat < 128 ∧ ch.toNat = a.toNat) ∨
      (192 ≤ a.toNat ∧ a.toNat < 224 ∧ isContinuation b = true ∧ 0x80 ≤ ch.toNat ∧
        ch.toNat = a.toNat % 32 * 64 + b.toNat % 64) ∨
      (224 ≤ a.toNat ∧ a.toNat < 240 ∧ isContinuation b = true ∧ isContinuation c = true ∧
        0x800 ≤ ch.toNat ∧ ch.toNat = (a.toNat % 16 * 64 + b.toNat % 64) * 64 + c.toNat % 64) ∨
      (240 ≤ a.toNat ∧ a.toNat < 248 ∧ isContinuation b = true ∧ isContinuation c = true ∧
        isContinuation d = true ∧ 0x10000 ≤ ch.toNat ∧
        ch.toNat =
          ((a.toNat % 8 * 64 + b.toNat % 64) * 64 + c.toNat % 64) * 64 + d.toNat % 64) := by
  obtain ⟨h5, h4, h3⟩ := toNat_and_mask a
  have hone : some (Char.ofNat a.toNat) = some ch ↔ ch.toNat = a.toNat := by
    have hvalid : a.toNat.isValidChar := Or.inl (Nat.lt_trans a.toNat_lt (by decide))
    constructor
    · intro h
      cases h
      exact toNat_ofNat hvalid
    · intro h
      rw [← h, Char.ofNat_toNat]
  simp only [decodeFour?, UInt8.lt_iff_toNat_lt, UInt8.reduceToNat, payload_eq, h5, h4, h3,
    Bool.and_eq_true]
  rcases Nat.lt_or_ge a.toNat 128 with h | h
  · simp only [h, if_true, hone]
    grind
  · rw [if_neg (by omega)]
    grind [ofCodePoint?_eq_some_iff]

/-- A missing byte continues no character. -/
theorem exists_of_isContinuation {bs : List UInt8} {i : Nat}
    (h : isContinuation (bs[i]?.getD 0) = true) :
    ∃ b, bs[i]? = some b ∧ 128 ≤ b.toNat ∧ b.toNat < 192 := by
  cases hb : bs[i]? with
  | none =>
    rw [hb] at h
    exact absurd h (by decide)
  | some b =>
    rw [hb] at h
    exact ⟨b, rfl, (isContinuation_iff b).mp h⟩

/-- Bytes with a first one are this byte and the rest. -/
theorem eq_cons_of_getElem? {bs : List UInt8} {b : UInt8} (h : bs[0]? = some b) :
    ∃ rest, bs = b :: rest := by
  cases bs with
  | nil => cases h
  | cons c rest =>
    cases h
    exact ⟨rest, rfl⟩

/-- Code points are below the limit of Unicode. -/
theorem toNat_lt (c : Char) : c.toNat < 0x110000 := by
  have hvalid : c.toNat.isValidChar := c.valid
  simp only [Nat.isValidChar] at hvalid
  omega

/-- The bytes that a character is read from begin with its UTF-8 form. -/
theorem prefix_of_decode? {a : UInt8} {rest : List UInt8} {c : Char}
    (h : decode? a rest = some c) : String.utf8EncodeChar c <+: a :: rest := by
  rw [decode?, decodeFour?_eq_some_iff] at h
  rcases h with ⟨ha, hc⟩ | ⟨ha, ha', hb, hle, hc⟩ | ⟨ha, ha', hb, hd, hle, hc⟩ |
    ⟨ha, ha', hb, hd, he, hle, hc⟩
  · have hbytes : String.utf8EncodeChar c = [a] := by
      rw [String.utf8EncodeChar, Char.toNat_val, hc, if_pos (by omega)]
      simp
    simp [hbytes]
  · obtain ⟨b, hget, hb⟩ := exists_of_isContinuation hb
    obtain ⟨tail, rfl⟩ := eq_cons_of_getElem? hget
    rw [hget, Option.getD_some] at hc
    have hbytes : String.utf8EncodeChar c = [a, b] := by
      rw [String.utf8EncodeChar, Char.toNat_val, hc, if_neg (by omega), if_pos (by omega)]
      simp [← UInt8.toNat_inj]
      omega
    simp [hbytes]
  · obtain ⟨b, hget, hb⟩ := exists_of_isContinuation hb
    obtain ⟨d, hget', hd⟩ := exists_of_isContinuation hd
    obtain ⟨tail, rfl⟩ := eq_cons_of_getElem? hget
    obtain ⟨tail, rfl⟩ := eq_cons_of_getElem? (by simpa using hget')
    rw [hget, hget', Option.getD_some, Option.getD_some] at hc
    have hbytes : String.utf8EncodeChar c = [a, b, d] := by
      rw [String.utf8EncodeChar, Char.toNat_val, hc, if_neg (by omega), if_neg (by omega),
        if_pos (by omega)]
      simp [← UInt8.toNat_inj]
      omega
    simp [hbytes]
  · obtain ⟨b, hget, hb⟩ := exists_of_isContinuation hb
    obtain ⟨d, hget', hd⟩ := exists_of_isContinuation hd
    obtain ⟨e, hget'', he⟩ := exists_of_isContinuation he
    obtain ⟨tail, rfl⟩ := eq_cons_of_getElem? hget
    obtain ⟨tail, rfl⟩ := eq_cons_of_getElem? (by simpa using hget')
    obtain ⟨tail, rfl⟩ := eq_cons_of_getElem? (by simpa using hget'')
    rw [hget, hget', hget'', Option.getD_some, Option.getD_some, Option.getD_some] at hc
    have hvalid := toNat_lt c
    have hbytes : String.utf8EncodeChar c = [a, b, d, e] := by
      rw [String.utf8EncodeChar, Char.toNat_val, hc, if_neg (by omega), if_neg (by omega),
        if_neg (by omega)]
      simp [← UInt8.toNat_inj]
      omega
    simp [hbytes]

/-- The character with a UTF-8 form that some bytes begin with is read from them. The number of its
bytes goes by the size of the code point. -/
theorem decode?_of_prefix {a : UInt8} {rest : List UInt8} {c : Char}
    (h : String.utf8EncodeChar c <+: a :: rest) : decode? a rest = some c := by
  obtain ⟨tail, htail⟩ := h
  have hvalid := toNat_lt c
  rw [decode?, decodeFour?_eq_some_iff]
  rw [String.utf8EncodeChar, Char.toNat_val] at htail
  split at htail
  · left
    obtain ⟨rfl, rfl⟩ := List.cons.inj htail
    simp
    omega
  · split at htail
    · right; left
      obtain ⟨rfl, rfl⟩ := List.cons.inj htail
      simp [isContinuation_iff]
      omega
    · split at htail
      · right; right; left
        obtain ⟨rfl, rfl⟩ := List.cons.inj htail
        simp [isContinuation_iff]
        omega
      · right; right; right
        obtain ⟨rfl, rfl⟩ := List.cons.inj htail
        simp [isContinuation_iff]
        omega

end Character

namespace Text

/-- Some bytes are those of some characters, one after the other, where a byte counts as a stray
only if no character begins with it there. -/
inductive Spells : List UInt8 → List Character → Prop where
  | nil : Spells [] []
  | scalar (c : Char) {bs : List UInt8} {cs : List Character} (hrest : Spells bs cs) :
      Spells (String.utf8EncodeChar c ++ bs) (.scalar c :: cs)
  | stray (b : UInt8) {bs : List UInt8} {cs : List Character}
      (hb : ∀ c, ¬ String.utf8EncodeChar c <+: b :: bs) (hrest : Spells bs cs) :
      Spells (b :: bs) (.stray b :: cs)

/-- Characters that some bytes spell are those that are read from them. -/
theorem Spells.eq_readCharacters {bs : List UInt8} {cs : List Character} (h : Spells bs cs) :
    readCharacters 0 [] bs = cs := by
  induction h with
  | nil => rfl
  | @scalar c bs cs hrest ih =>
    obtain ⟨a, rest, hbytes⟩ := List.exists_cons_of_ne_nil (String.utf8EncodeChar_ne_nil (c := c))
    have hread : Character.read a (rest ++ bs) = .scalar c := by
      have hdecode : Character.decode? a (rest ++ bs) = some c := by
        apply Character.decode?_of_prefix
        rw [hbytes]
        exact List.prefix_append _ bs
      rw [Character.read, hdecode]
    have hwidth : (a :: rest).length = c.utf8Size := by
      rw [← hbytes, String.length_utf8EncodeChar]
    have hdrop : (a :: (rest ++ bs)).drop c.utf8Size = bs := by
      rw [← List.cons_append, ← hwidth, List.drop_left]
    rw [hbytes, List.cons_append, readCharacters_cons, hread]
    simp only [Character.width, hdrop, ih]
  | @stray b bs cs hb hrest ih =>
    have hread : Character.read b bs = .stray b := by
      have hdecode : Character.decode? b bs = none := by
        rw [Option.eq_none_iff_forall_ne_some]
        intro c hc
        exact hb c (Character.prefix_of_decode? hc)
      rw [Character.read, hdecode]
    rw [readCharacters_cons, hread]
    simp only [Character.width, List.drop_succ_cons, List.drop_zero, ih]

/-- The characters that are read of some bytes spell these bytes. -/
theorem spells_readCharacters (bs : List UInt8) : Spells bs (readCharacters 0 [] bs) := by
  induction hn : bs.length using Nat.strongRecOn generalizing bs with
  | ind n ih =>
    cases bs with
    | nil => exact .nil
    | cons b rest =>
      rw [readCharacters_cons]
      cases hdecode : Character.decode? b rest with
      | some c =>
        have hread : Character.read b rest = .scalar c := by rw [Character.read, hdecode]
        obtain ⟨tail, htail⟩ := Character.prefix_of_decode? hdecode
        have hdrop : (b :: rest).drop c.utf8Size = tail := by
          rw [← htail, ← String.length_utf8EncodeChar, List.drop_left]
        have hlength : tail.length < n := by
          have hpos := c.utf8Size_pos
          rw [← hn, ← hdrop, List.length_drop, List.length_cons]
          omega
        rw [hread, Character.width, hdrop, ← htail]
        exact .scalar c (ih _ hlength tail rfl)
      | none =>
        have hread : Character.read b rest = .stray b := by rw [Character.read, hdecode]
        rw [hread, Character.width, List.drop_succ_cons, List.drop_zero]
        refine .stray b (fun c hc => ?_) (ih _ (by simp [← hn]) rest rfl)
        rw [Character.decode?_of_prefix hc] at hdecode
        cases hdecode

/-- A text is taken apart into characters in one way only. -/
theorem spells_iff {t : Text} {cs : List Character} : Spells t.bytes cs ↔ t.characters = cs := by
  constructor
  · exact Spells.eq_readCharacters
  · rintro rfl
    exact spells_readCharacters t.bytes

/-- A character as it is read elsewhere: itself, or the replacement character for a stray byte. -/
inductive Shown : Character → Char → Prop where
  | scalar (c : Char) : Shown (.scalar c) c
  | stray (b : UInt8) : Shown (.stray b) '\uFFFD'

/-- A text is read elsewhere as some characters: those that it spells, with the replacement
character for each stray byte. -/
def ReadAs (t : Text) (cs : List Char) : Prop :=
  ∃ spelled, Spells t.bytes spelled ∧ List.Forall₂ Shown spelled cs

/-- A character is read elsewhere in one way. -/
theorem shown_iff {c : Character} {d : Char} : Shown c d ↔ c.toChar = d := by
  constructor
  · rintro (_ | _) <;> rfl
  · rintro rfl
    cases c with
    | scalar c => exact .scalar c
    | stray b => exact .stray b

/-- A text is read elsewhere in one way. -/
theorem readAs_iff {t : Text} {cs : List Char} : t.ReadAs cs ↔ cs = t.chars := by
  have hshown : Shown = fun c d => c.toChar = d := by
    funext c d
    exact propext shown_iff
  simp only [ReadAs, spells_iff, exists_eq_left']
  rw [hshown, ← List.forall₂_map_left_iff (R := Eq) (f := Character.toChar), List.forall₂_eq_eq_eq,
    chars, eq_comm]

/-- Characters that spell some bytes have these bytes. -/
theorem Spells.flatMap_bytes {bs : List UInt8} {cs : List Character} (h : Spells bs cs) :
    cs.flatMap Character.bytes = bs := by
  induction h with
  | nil => rfl
  | scalar c _ ih => rw [List.flatMap_cons, ih, Character.bytes]
  | stray b _ _ ih => rw [List.flatMap_cons, ih, Character.bytes, List.singleton_append]

/-- The bytes of the characters of a text are those of the text. -/
theorem flatMap_bytes_characters (t : Text) : t.characters.flatMap Character.bytes = t.bytes :=
  (spells_iff.mpr rfl).flatMap_bytes

/-- The bytes of some characters. -/
def encode (cs : List Char) : List UInt8 := cs.flatMap String.utf8EncodeChar

/-- No characters have no bytes. -/
@[simp] theorem encode_nil : encode [] = [] := rfl

/-- The bytes of a character stand in front of those of the characters behind it. -/
@[simp] theorem encode_cons (c : Char) (cs : List Char) :
    encode (c :: cs) = String.utf8EncodeChar c ++ encode cs := List.flatMap_cons

/-- The bytes of characters one after the other stand one after the other. -/
@[simp] theorem encode_append (cs ds : List Char) : encode (cs ++ ds) = encode cs ++ encode ds :=
  List.flatMap_append

/-- The bytes of a text made of characters are those of the characters. -/
@[simp] theorem bytes_ofChars (cs : List Char) : (ofChars cs).bytes = encode cs := rfl

/-- The text of a string is made of its characters. -/
theorem ofString_eq_ofChars (t : String) : ofString t = ofChars t.toList := by
  have hbytes : t.toByteArray.data.toList = encode t.toList := by
    rw [← String.utf8Encode_toList]
    exact List.toList_data_toByteArray
  exact Text.ext hbytes

/-- Characters spell their own bytes, without strays. -/
theorem spells_encode (cs : List Char) : Spells (encode cs) (cs.map .scalar) := by
  induction cs with
  | nil => exact .nil
  | cons c cs ih =>
    rw [encode_cons, List.map_cons]
    exact .scalar c ih

/-- The characters of a text of characters are these. -/
@[simp] theorem characters_ofChars (cs : List Char) : (ofChars cs).characters = cs.map .scalar :=
  spells_iff.mp (spells_encode cs)

/-- The characters of a text made of characters are these. -/
@[simp] theorem chars_ofChars (cs : List Char) : (ofChars cs).chars = cs := by
  simp [chars, Function.comp_def, Character.toChar]

/-- A text made of characters is as long as they are many. -/
@[simp] theorem length_ofChars (cs : List Char) : (ofChars cs).length = cs.length := by
  rw [length_eq, characters_ofChars, List.length_map]

/-- Texts made of characters are joined by joining the characters. -/
theorem ofChars_append (cs ds : List Char) : ofChars cs ++ ofChars ds = ofChars (cs ++ ds) := by
  ext1
  rw [bytes_append, bytes_ofChars, bytes_ofChars, bytes_ofChars, encode_append]

/-- The text of the empty string is the empty text. -/
theorem ofString_empty : ofString "" = empty := by decide

/-- The characters of the text of a string are those of the string. -/
@[simp] theorem chars_ofString (t : String) : (ofString t).chars = t.toList := by
  rw [ofString_eq_ofChars, chars_ofChars]

/-- The text of a string is as long as the string. -/
@[simp] theorem length_ofString (t : String) : (ofString t).length = t.length := by
  rw [ofString_eq_ofChars, length_ofChars, String.length_toList]

/-- The characters of one list come first among those of another exactly if their bytes do. -/
theorem encode_prefix_iff {cs ds : List Char} : encode ds <+: encode cs ↔ ds <+: cs := by
  constructor
  · intro h
    induction ds generalizing cs with
    | nil => exact List.nil_prefix
    | cons d ds ih =>
      cases cs with
      | nil => simp [String.utf8EncodeChar_ne_nil] at h
      | cons c cs =>
        obtain ⟨a, rest, hbytes⟩ :=
          List.exists_cons_of_ne_nil (String.utf8EncodeChar_ne_nil (c := c))
        have hc : Character.decode? a (rest ++ encode cs) = some c := by
          apply Character.decode?_of_prefix
          rw [hbytes]
          exact List.prefix_append _ (encode cs)
        have hd : Character.decode? a (rest ++ encode cs) = some d := by
          apply Character.decode?_of_prefix
          have hfirst : String.utf8EncodeChar d <+: encode (c :: cs) :=
            (List.prefix_append _ _).trans h
          rwa [encode_cons, hbytes] at hfirst
        obtain rfl : c = d := Option.some.inj (hc.symm.trans hd)
        rw [encode_cons, encode_cons, List.prefix_append_right_inj] at h
        exact (List.prefix_cons_inj c).mpr (ih h)
  · rintro ⟨rest, rfl⟩
    rw [encode_append]
    exact List.prefix_append _ _

/-- A byte that can begin a character begins one of those whose bytes it is among. -/
theorem exists_of_isUTF8FirstByte {cs : List Char} {p : Nat} {b : UInt8} {rest : List UInt8}
    (h : (encode cs).drop p = b :: rest) (hb : b.IsUTF8FirstByte) :
    ∃ i, p = (encode (cs.take i)).length := by
  induction cs generalizing p with
  | nil => simp at h
  | cons c cs ih =>
    rw [encode_cons] at h
    rcases Nat.lt_or_ge p (String.utf8EncodeChar c).length with hp | hp
    · have hget : (String.utf8EncodeChar c)[p] = b := by
        rw [List.drop_append_of_le_length (Nat.le_of_lt hp), List.drop_eq_getElem_cons hp] at h
        exact (List.cons.inj h).1
      rw [← hget, UInt8.isUTF8FirstByte_getElem_utf8EncodeChar] at hb
      exact ⟨0, by simp [hb]⟩
    · rw [List.drop_append, List.drop_eq_nil_of_le hp, List.nil_append] at h
      obtain ⟨i, hi⟩ := ih h
      refine ⟨i + 1, ?_⟩
      rw [List.take_succ_cons, encode_cons, List.length_append, ← hi]
      omega

/-- The bytes of some characters are those of the first few and those of the others. -/
theorem encode_take_drop (cs : List Char) (i : Nat) :
    encode cs = encode (cs.take i) ++ encode (cs.drop i) := by
  rw [← encode_append, List.take_append_drop]

/-- The first characters take up the first bytes. -/
theorem take_encode (cs : List Char) (i : Nat) :
    (encode cs).take (encode (cs.take i)).length = encode (cs.take i) := by
  rw [encode_take_drop cs i, List.take_left]

/-- The characters behind the first ones take up the bytes behind. -/
theorem drop_encode (cs : List Char) (i : Nat) :
    (encode cs).drop (encode (cs.take i)).length = encode (cs.drop i) := by
  rw [encode_take_drop cs i, List.drop_left]

/-- The bytes of some characters are found among those of others exactly where the characters
are. -/
theorem encode_prefix_drop_iff {cs ds : List Char} (hds : ds ≠ []) {p : Nat} :
    encode ds <+: (encode cs).drop p ↔
      ∃ i, p = (encode (cs.take i)).length ∧ ds <+: cs.drop i := by
  constructor
  · intro h
    obtain ⟨d, ds', rfl⟩ := List.exists_cons_of_ne_nil hds
    obtain ⟨b, tail, hbytes⟩ := List.exists_cons_of_ne_nil (String.utf8EncodeChar_ne_nil (c := d))
    have hb : b.IsUTF8FirstByte := by
      have hfirst := UInt8.isUTF8FirstByte_getElem_zero_utf8EncodeChar (c := d)
      simpa only [hbytes, List.getElem_cons_zero] using hfirst
    have hhead : ∃ rest, (encode cs).drop p = b :: rest := by
      obtain ⟨rest, hrest⟩ := h
      exact ⟨_, by rw [← hrest, encode_cons, hbytes]; rfl⟩
    obtain ⟨rest, hrest⟩ := hhead
    obtain ⟨i, rfl⟩ := exists_of_isUTF8FirstByte hrest hb
    rw [drop_encode, encode_prefix_iff] at h
    exact ⟨i, rfl, h⟩
  · rintro ⟨i, rfl, h⟩
    rw [drop_encode, encode_prefix_iff]
    exact h

end Text

end TinyScript
