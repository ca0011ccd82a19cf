import TinyScript.Text.Basic

/-!
# Characters of a text

A text is read as characters from left to right. Where the next bytes are the UTF-8 form of a
character, that character is read; where they are not, one byte is set apart as a stray. So
every byte belongs to exactly one character, and reading never fails.

Counting characters and going past some of them needs only their widths. Both walk over the text
in place, and agree with the list of its characters.
-/

namespace TinyScript

/-- One character of a text: a decoded one, or a byte that is part of none. -/
inductive Character where
  | scalar (c : Char)
  | stray (b : UInt8)
deriving DecidableEq, Inhabited

namespace Character

/-- The bytes a character stands for. -/
def bytes : Character → List UInt8
  | scalar c => String.utf8EncodeChar c
  | stray b => [b]

/-- The number of bytes a character stands for. -/
def width : Character → Nat
  | scalar c => c.utf8Size
  | stray _ => 1

/-- The replacement character, which stands in for a stray byte. -/
def replacement : Char := '�'

/-- The character itself, or the replacement character for a stray byte. -/
def toChar : Character → Char
  | scalar c => c
  | stray _ => replacement

/-- Whether a byte can only continue a character. -/
def isContinuation (b : UInt8) : Bool := b &&& 0xC0 == 0x80

/-- The low six bits of a byte that continues a character. -/
def payload (b : UInt8) : Nat := (b &&& 0x3F).toNat

/-- The character of a code point, unless a shorter form exists or it is no character. -/
def ofCodePoint? (least value : Nat) : Option Char :=
  if least ≤ value ∧ value.isValidChar then some (Char.ofNat value) else none

/-- The character that a byte and the three bytes after it begin with, if any. -/
@[inline] def decodeFour? (a b c d : UInt8) : Option Char :=
  if a < 0x80 then some (Char.ofNat a.toNat)
  else if a < 0xC0 then none
  else if a < 0xE0 then
    if isContinuation b then ofCodePoint? 0x80 ((a &&& 0x1F).toNat * 64 + payload b) else none
  else if a < 0xF0 then
    if isContinuation b && isContinuation c then
      ofCodePoint? 0x800 (((a &&& 0x0F).toNat * 64 + payload b) * 64 + payload c)
    else none
  else if a < 0xF8 then
    if isContinuation b && isContinuation c && isContinuation d then
      ofCodePoint? 0x10000
        ((((a &&& 0x07).toNat * 64 + payload b) * 64 + payload c) * 64 + payload d)
    else none
  else none

/-- The character that a first byte and the bytes after it encode, if any. A missing byte counts as
zero, which continues no character. -/
def decode? (a : UInt8) (rest : List UInt8) : Option Char :=
  decodeFour? a (rest[0]?.getD 0) (rest[1]?.getD 0) (rest[2]?.getD 0)

/-- The character that begins with a byte: the encoded one, or the byte as a stray. -/
def read (a : UInt8) (rest : List UInt8) : Character :=
  match decode? a rest with
  | some c => scalar c
  | none => stray a

/-- No character is without bytes. -/
theorem width_pos (c : Character) : 0 < c.width := by
  cases c with
  | scalar c => exact c.utf8Size_pos
  | stray _ => exact Nat.one_pos

/-- A valid code point is that of its character. -/
theorem toNat_ofNat {n : Nat} (h : n.isValidChar) : (Char.ofNat n).toNat = n :=
  congrArg Char.toNat (dif_pos h)

/-- A code point that is taken is at least the least one. -/
theorem le_toNat_of_ofCodePoint? {least value : Nat} {c : Char}
    (h : ofCodePoint? least value = some c) : least ≤ c.toNat := by
  unfold ofCodePoint? at h
  split at h
  · next hv =>
    cases h
    rw [toNat_ofNat hv.2]
    exact hv.1
  · cases h

/-- Fewer bytes than there are can make no character out of a stray byte, and as many bytes as a
character has are enough for it. -/
theorem read_take (a : UInt8) (rest : List UInt8) (k : Nat) (hk : (read a rest).width ≤ k + 1) :
    read a (rest.take k) = read a rest := by
  have h2 : ∀ c : Char, 0x80 ≤ c.toNat → 2 ≤ c.utf8Size := fun c hc => by
    simp only [Char.utf8Size, UInt32.le_iff_toNat_le]
    simp; split <;> grind
  have h3 : ∀ c : Char, 0x800 ≤ c.toNat → 3 ≤ c.utf8Size := fun c hc => by
    simp only [Char.utf8Size, UInt32.le_iff_toNat_le]
    simp; split <;> grind
  have h4 : ∀ c : Char, 0x10000 ≤ c.toNat → 4 ≤ c.utf8Size := fun c hc => by
    simp only [Char.utf8Size, UInt32.le_iff_toNat_le]
    simp; split <;> grind
  have hle := @le_toNat_of_ofCodePoint?
  have hzero : isContinuation 0 = false := by decide
  have hmore : ∀ c, decode? a (rest.take k) = some c → decode? a rest = some c := fun c hc => by
    match rest, k with
    | [], _ | _, 0 | [_], _ + 1 | _ :: _ :: _, 1 | [_, _], _ + 2 | _ :: _ :: _ :: _, 2
    | _ :: _ :: _ :: _, _ + 3 => simp [decode?, decodeFour?] at hc ⊢; grind
  have hless : ∀ c, decode? a rest = some c → decode? a (rest.take k) = some c := fun c hc => by
    have hw : c.utf8Size ≤ k + 1 := by simpa [read, hc, width] using hk
    match rest, k with
    | [], _ | _ :: _, 0 | [_], _ + 1 | _ :: _ :: _, 1 | [_, _], _ + 2 | _ :: _ :: _ :: _, 2
    | _ :: _ :: _ :: _, _ + 3 => simp [decode?, decodeFour?] at hc hw ⊢; grind
  have h : decode? a (rest.take k) = decode? a rest := Option.ext fun c => ⟨hmore c, hless c⟩
  simp [read, h]

/-- A byte below 128 is a character by itself. -/
theorem width_read_of_lt {a : UInt8} (h : a < 0x80) (rest : List UInt8) :
    (read a rest).width = 1 := by
  have hn : a.toNat < 128 := by simpa [UInt8.lt_iff_toNat_lt] using h
  have hv : a.toNat.isValidChar := Or.inl (by omega)
  have hc : (Char.ofNat a.toNat).val.toNat = a.toNat := toNat_ofNat hv
  have hle : (Char.ofNat a.toNat).val ≤ 127 := by
    rw [UInt32.le_iff_toNat_le, hc]
    simpa using Nat.le_of_lt_succ hn
  simp [read, decode?, decodeFour?, h, width, Char.utf8Size, hle]

/-- The byte at an offset, or zero where there is none. -/
@[inline] def byteAt (d : ByteArray) (i : Nat) : UInt8 := if h : i < d.size then d[i] else 0

/-- The character at an offset of a text that is kept in one piece. -/
@[inline] def readAt (d : ByteArray) (i : Nat) (h : i < d.size) : Character :=
  match decodeFour? d[i] (byteAt d (i + 1)) (byteAt d (i + 2)) (byteAt d (i + 3)) with
  | some c => scalar c
  | none => stray d[i]

/-- The width of the character at an offset. -/
@[inline] def widthAt (d : ByteArray) (i : Nat) (h : i < d.size) : Nat :=
  if d[i] < 0x80 then 1 else (readAt d i h).width

/-- The byte at an offset is the one of the list of bytes. -/
theorem byteAt_eq (d : ByteArray) (i : Nat) : byteAt d i = d.data.toList[i]?.getD 0 := by
  unfold byteAt
  split
  · next h => simp [ByteArray.getElem_eq_getElem_data, h]
  · next h => rw [List.getElem?_eq_none (by simpa using h)]; rfl

/-- The character at an offset is the one that the bytes there begin with. -/
theorem readAt_eq (d : ByteArray) (i : Nat) (h : i < d.size) :
    readAt d i h = read d[i] (d.data.toList.drop (i + 1)) := by
  simp only [readAt, read, decode?, byteAt_eq, List.getElem?_drop, Nat.add_zero, Nat.add_assoc]

/-- The width at an offset is that of the character there. -/
theorem widthAt_eq (d : ByteArray) (i : Nat) (h : i < d.size) :
    widthAt d i h = (readAt d i h).width := by
  unfold widthAt
  split
  · next hlt => rw [readAt_eq, width_read_of_lt hlt]
  · rfl

end Character

namespace Text

/-- Read characters after skipping the bytes that the last one still owns; `done` holds what is
read already, newest first. -/
def readCharacters (skip : Nat) (done : List Character) : List UInt8 → List Character
  | [] => done.reverse
  | b :: rest =>
    match skip with
    | k + 1 => readCharacters k done rest
    | 0 => readCharacters ((Character.read b rest).width - 1) (Character.read b rest :: done) rest

/-- The characters of a text, in order. -/
def characters (t : Text) : List Character := readCharacters 0 [] t.bytes

/-- Bytes that are skipped do not count. -/
theorem readCharacters_skip (skip : Nat) (done : List Character) (bs : List UInt8) :
    readCharacters skip done bs = readCharacters 0 done (bs.drop skip) := by
  induction bs generalizing skip with
  | nil => simp [readCharacters]
  | cons b rest ih =>
    cases skip with
    | zero => rfl
    | succ k => simpa [readCharacters] using ih k

/-- What is read already stays in front. -/
theorem readCharacters_done (skip : Nat) (done : List Character) (bs : List UInt8) :
    readCharacters skip done bs = done.reverse ++ readCharacters skip [] bs := by
  induction bs generalizing skip done with
  | nil => simp [readCharacters]
  | cons b rest ih =>
    cases skip with
    | zero =>
      simp only [readCharacters]
      rw [ih, ih _ [_]]
      simp
    | succ k => simpa [readCharacters] using ih k done

/-- The characters of some bytes are the first one and those of the bytes behind it. -/
theorem readCharacters_cons (b : UInt8) (rest : List UInt8) :
    readCharacters 0 [] (b :: rest) = Character.read b rest ::
      readCharacters 0 [] ((b :: rest).drop (Character.read b rest).width) := by
  obtain ⟨k, hk⟩ := Nat.exists_eq_succ_of_ne_zero (Nat.ne_of_gt (Character.read b rest).width_pos)
  rw [readCharacters, readCharacters_done, readCharacters_skip, hk]
  simp

/-- The bytes from an offset on begin with the one there. -/
theorem drop_toList (d : ByteArray) (i : Nat) (h : i < d.size) :
    d.data.toList.drop i = d[i] :: d.data.toList.drop (i + 1) := by
  rw [List.drop_eq_getElem_cons (by simpa using h)]
  simp [ByteArray.getElem_eq_getElem_data]

/-- The characters from an offset on are the one there and those behind it. -/
theorem readCharacters_drop (d : ByteArray) (i : Nat) (h : i < d.size) :
    readCharacters 0 [] (d.data.toList.drop i) = Character.readAt d i h ::
      readCharacters 0 [] (d.data.toList.drop (i + (Character.readAt d i h).width)) := by
  rw [Character.readAt_eq, drop_toList d i h, readCharacters_cons, ← drop_toList d i h,
    List.drop_drop]

/-- Combine the characters from an offset on, from left to right. -/
@[specialize] def foldFrom {α : Type} (d : ByteArray) (f : α → Character → α) (i : Nat) (a : α) : α :=
  if h : i < d.size then
    foldFrom d f (i + (Character.readAt d i h).width) (f a (Character.readAt d i h))
  else a
termination_by d.size - i
decreasing_by
  have := Character.width_pos (Character.readAt d i h)
  omega

/-- Combine the characters of a text from left to right. -/
@[inline] def fold {α : Type} (t : Text) (f : α → Character → α) (a : α) : α := foldFrom t.data f 0 a

/-- Combining from an offset on is combining the characters of the bytes there. -/
theorem foldFrom_eq {α : Type} (d : ByteArray) (f : α → Character → α) (i : Nat) (a : α) :
    foldFrom d f i a = (readCharacters 0 [] (d.data.toList.drop i)).foldl f a := by
  fun_induction foldFrom d f i a with
  | case1 i a h ih => rw [ih, readCharacters_drop d i h, List.foldl_cons]
  | case2 i a h =>
    have hend : d.data.toList.drop i = [] := List.drop_eq_nil_iff.2 (by simpa using h)
    simp [hend, readCharacters]

/-- Characters are combined as those of the list are. -/
theorem fold_eq {α : Type} (t : Text) (f : α → Character → α) (a : α) :
    t.fold f a = t.characters.foldl f a := by
  simp [fold, foldFrom_eq, characters, bytes]

/-- Count the characters from an offset on, and add them to a number. -/
def countFrom (d : ByteArray) (i n : Nat) : Nat :=
  if h : i < d.size then countFrom d (i + Character.widthAt d i h) (n + 1) else n
termination_by d.size - i
decreasing_by
  have := Character.width_pos (Character.readAt d i h)
  rw [Character.widthAt_eq]
  omega

/-- The number of characters. -/
def length (t : Text) : Nat := countFrom t.data 0 0

/-- Counting from an offset on is counting the characters of the bytes there. -/
theorem countFrom_eq (d : ByteArray) (i n : Nat) :
    countFrom d i n = n + (readCharacters 0 [] (d.data.toList.drop i)).length := by
  fun_induction countFrom d i n with
  | case1 i n h ih =>
    rw [ih, readCharacters_drop d i h, Character.widthAt_eq, List.length_cons]
    omega
  | case2 i n h =>
    have hend : d.data.toList.drop i = [] := List.drop_eq_nil_iff.2 (by simpa using h)
    simp [hend, readCharacters]

/-- The length counts the characters. -/
theorem length_eq (t : Text) : t.length = t.characters.length := by
  simp [length, countFrom_eq, characters, bytes]

/-- The offset that lies a number of characters behind another one, or the end. -/
def skipFrom (d : ByteArray) : Nat → Nat → Nat
  | i, 0 => i
  | i, n + 1 => if h : i < d.size then skipFrom d (i + Character.widthAt d i h) n else i

/-- The text of the characters from one place up to, not including, another one. -/
def part (t : Text) (first stop : Nat) : Text :=
  let i := skipFrom t.data 0 first
  t.cut i (skipFrom t.data i (stop - first))

/-- Skipping goes forward. -/
theorem le_skipFrom (d : ByteArray) (i n : Nat) : i ≤ skipFrom d i n := by
  induction n generalizing i with
  | zero => exact Nat.le_refl _
  | succ n ih =>
    unfold skipFrom
    split
    · exact Nat.le_trans (Nat.le_add_right ..) (ih _)
    · exact Nat.le_refl _

/-- Behind skipped characters are the others. -/
theorem readCharacters_drop_skipFrom (d : ByteArray) (i n : Nat) :
    readCharacters 0 [] (d.data.toList.drop (skipFrom d i n)) =
      (readCharacters 0 [] (d.data.toList.drop i)).drop n := by
  induction n generalizing i with
  | zero => simp [skipFrom]
  | succ n ih =>
    unfold skipFrom
    split
    · next h => rw [ih, readCharacters_drop d i h, Character.widthAt_eq, List.drop_succ_cons]
    · next h =>
      have hend : d.data.toList.drop i = [] := List.drop_eq_nil_iff.2 (by simpa using h)
      simp [hend, readCharacters]

/-- Up to skipped characters there are exactly these. -/
theorem readCharacters_take_skipFrom (d : ByteArray) (i n : Nat) :
    readCharacters 0 [] ((d.data.toList.take (skipFrom d i n)).drop i) =
      (readCharacters 0 [] (d.data.toList.drop i)).take n := by
  induction n generalizing i with
  | zero => simp [skipFrom, readCharacters]
  | succ n ih =>
    unfold skipFrom
    split
    · next h =>
      have hle := le_skipFrom d (i + Character.widthAt d i h) n
      have hih := ih (i + Character.widthAt d i h)
      revert hle hih
      generalize skipFrom d (i + Character.widthAt d i h) n = j
      intro hle hih
      rw [Character.widthAt_eq] at hle hih
      have hpos := Character.width_pos (Character.readAt d i h)
      have hsplit : (d.data.toList.take j).drop i =
          d[i] :: (d.data.toList.drop (i + 1)).take (j - (i + 1)) := by
        rw [List.drop_take, drop_toList d i h, show j - i = j - (i + 1) + 1 by omega]
        rfl
      have hread : Character.read d[i] ((d.data.toList.drop (i + 1)).take (j - (i + 1))) =
          Character.readAt d i h := by
        rw [Character.readAt_eq]
        refine Character.read_take _ _ _ ?_
        rw [← Character.readAt_eq d i h]
        omega
      rw [hsplit, readCharacters_cons, hread, ← hsplit, List.drop_drop, hih,
        readCharacters_drop d i h, List.take_succ_cons]
    · next h =>
      have hend : d.data.toList.drop i = [] := List.drop_eq_nil_iff.2 (by simpa using h)
      simp [hend, readCharacters]

/-- The characters of a part are those between its ends. -/
theorem characters_part (t : Text) (first stop : Nat) :
    (t.part first stop).characters = (t.characters.take stop).drop first := by
  have h := readCharacters_take_skipFrom t.data (skipFrom t.data 0 first) (stop - first)
  rw [readCharacters_drop_skipFrom, List.drop_zero, ← List.drop_take] at h
  rw [characters, part, bytes_cut]
  exact h

/-- The characters of a text with the replacement character in place of stray bytes. -/
def chars (t : Text) : List Char := t.characters.map Character.toChar

/-- The text of a list of characters. -/
def ofCharacters (cs : List Character) : Text := ofBytes (cs.flatMap Character.bytes)

/-- The text of a list of decoded characters. -/
def ofChars (cs : List Char) : Text := ofBytes (cs.flatMap String.utf8EncodeChar)

/-- A text with one more character. -/
def pushChar (t : Text) (c : Char) : Text :=
  if c.val ≤ 0x7F then ⟨t.data.push c.val.toUInt8⟩ else t ++ ofBytes (String.utf8EncodeChar c)

/-- One more character adds its bytes. -/
@[simp] theorem bytes_pushChar (t : Text) (c : Char) :
    (t.pushChar c).bytes = t.bytes ++ String.utf8EncodeChar c := by
  unfold pushChar
  split
  · next h =>
    have h' : c.toNat ≤ 127 := by simpa [UInt32.le_iff_toNat_le] using h
    have hpush : (⟨t.data.push c.val.toUInt8⟩ : Text).bytes = t.bytes ++ [c.val.toUInt8] :=
      Array.toList_push
    rw [hpush]
    simp [String.utf8EncodeChar, h']
    rfl
  · simp

/-- The text with the replacement character in place of stray bytes. -/
def mended (t : Text) : Text := t.fold (fun out c => out.pushChar c.toChar) empty

/-- Mending is reading and writing the characters. -/
theorem mended_eq (t : Text) : t.mended = ofChars t.chars := by
  have h : ∀ (cs : List Character) (out : Text),
      (cs.foldl (fun out c => out.pushChar c.toChar) out).bytes =
        out.bytes ++ (cs.map Character.toChar).flatMap String.utf8EncodeChar := by
    intro cs
    induction cs with
    | nil => simp
    | cons c cs ih => intro out; simp [ih]
  refine Text.ext ?_
  rw [mended, fold_eq, h]
  simp [ofChars, chars, bytes, empty]
  rfl

/-- Whether no byte of the text is a stray. -/
def isValid (t : Text) : Bool :=
  t.fold (fun ok c =>
    match c with
    | .scalar _ => ok
    | .stray _ => false) true

/-- The first `n` characters, or the whole text if it has fewer. -/
def preview (n : Nat) (t : Text) : Text := ofCharacters (t.characters.take n)

end Text

end TinyScript
