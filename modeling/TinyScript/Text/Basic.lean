/-!
# Texts

A text of the language is a finite sequence of bytes. It usually holds UTF-8, but nothing
requires that: every operation below is about bytes, and reading a text as characters is
a separate view of it.

Texts are kept in one piece, so that putting them together and cutting them moves whole blocks.
What an operation does is said by the list of bytes that a text has.
-/

namespace TinyScript

/-- A text: any finite sequence of bytes. -/
structure Text where
  data : ByteArray

namespace Text

instance : DecidableEq Text := fun s t =>
  match ByteArray.decEq s.data t.data with
  | .isTrue h => .isTrue (by cases s; cases t; cases h; rfl)
  | .isFalse h => .isFalse fun e => h (by rw [e])

/-- The text of a list of bytes. -/
def ofBytes (bs : List UInt8) : Text := ⟨⟨bs.toArray⟩⟩

/-- The bytes of a text, in order. -/
def bytes (t : Text) : List UInt8 := t.data.data.toList

/-- The bytes of a string in UTF-8. -/
def ofString (s : String) : Text := ⟨s.toUTF8⟩

instance : Coe String Text := ⟨ofString⟩

/-- The text without bytes. -/
def empty : Text := ⟨ByteArray.empty⟩

instance : Inhabited Text := ⟨empty⟩

/-- One text after the other. -/
protected def append (s t : Text) : Text := ⟨s.data.append t.data⟩

instance : Append Text := ⟨Text.append⟩

/-- A text made of bytes has these bytes. -/
@[simp] theorem bytes_ofBytes (bs : List UInt8) : (ofBytes bs).bytes = bs := rfl

/-- The bytes of texts one behind the other stand one behind the other. -/
@[simp] theorem bytes_append (s t : Text) : (s ++ t).bytes = s.bytes ++ t.bytes := rfl

/-- A text with more bytes behind it. -/
def pushBytes (t : Text) (bs : List UInt8) : Text := ⟨bs.foldl ByteArray.push t.data⟩

/-- The bytes pushed follow the others. -/
@[simp] theorem bytes_pushBytes (t : Text) (bs : List UInt8) :
    (t.pushBytes bs).bytes = t.bytes ++ bs := by
  induction bs generalizing t with
  | nil => simp [pushBytes]
  | cons b bs ih =>
    have h : (⟨t.data.push b⟩ : Text).bytes = t.bytes ++ [b] := Array.toList_push
    exact (ih ⟨t.data.push b⟩).trans (by simp [h])

/-- Texts with the same bytes are the same. -/
@[ext] theorem ext {s t : Text} (h : s.bytes = t.bytes) : s = t := by
  obtain ⟨⟨⟨s⟩⟩⟩ := s
  obtain ⟨⟨⟨t⟩⟩⟩ := t
  cases h
  rfl

/-- The empty text has no bytes. -/
@[simp] theorem bytes_empty : empty.bytes = [] := rfl

/-- Nothing in front of a text changes nothing. -/
@[simp] theorem empty_append (t : Text) : empty ++ t = t := by ext1; simp

/-- Nothing behind a text changes nothing. -/
@[simp] theorem append_empty (t : Text) : t ++ empty = t := by ext1; simp

/-- Texts may be joined in any grouping. -/
theorem append_assoc (s t u : Text) : s ++ t ++ u = s ++ (t ++ u) := by ext1; simp

/-- The number of bytes. -/
def size (t : Text) : Nat := t.data.size

/-- The size counts the bytes. -/
theorem size_eq_length (t : Text) : t.size = t.bytes.length := rfl

/-- Whether the text has no bytes. -/
def isEmpty (t : Text) : Bool := t.data.size == 0

/-- The part of a text from one offset up to another. -/
def cut (t : Text) (first stop : Nat) : Text := ⟨t.data.extract first stop⟩

/-- The bytes of a part are those between its ends. -/
@[simp] theorem bytes_cut (t : Text) (first stop : Nat) :
    (t.cut first stop).bytes = (t.bytes.take stop).drop first := by
  simp [bytes, cut, ByteArray.data_extract, Array.toList_extract, List.extract_eq_take_drop,
    List.drop_take]

/-- The first bytes of a text, at most `n`. -/
def take (t : Text) (n : Nat) : Text := t.cut 0 n

/-- A text without its first `n` bytes. -/
def drop (t : Text) (n : Nat) : Text := t.cut n t.size

/-- All texts of a list, one after the other. -/
def concat (ts : List Text) : Text := ts.foldl Text.append empty

/-- All texts of a list with a separator between neighbours. -/
def join (sep : Text) : List Text → Text
  | [] => empty
  | t :: rest => rest.foldl (fun done u => (done ++ sep) ++ u) t

/-- Behind a text comes the rest of the texts. -/
theorem foldl_append (ts : List Text) (t : Text) : ts.foldl Text.append t = t ++ concat ts := by
  have h : ∀ (ts : List Text) (t : Text),
      (ts.foldl Text.append t).bytes = t.bytes ++ ts.flatMap bytes := by
    intro ts
    induction ts with
    | nil => simp
    | cons u ts ih =>
      intro t
      have hu : (Text.append t u).bytes = t.bytes ++ u.bytes := rfl
      simp [ih, hu]
  ext1
  simp [concat, h]

/-- No texts joined are the empty text. -/
@[simp] theorem concat_nil : concat [] = empty := rfl

/-- The first text comes first. -/
theorem concat_cons (t : Text) (ts : List Text) : concat (t :: ts) = t ++ concat ts := by
  rw [concat, List.foldl_cons, foldl_append]
  exact congrArg (· ++ concat ts) (empty_append t)

/-- Texts joined in two groups are joined one behind the other. -/
theorem concat_append (ts us : List Text) : concat (ts ++ us) = concat ts ++ concat us := by
  induction ts with
  | nil => simp
  | cons t ts ih => rw [List.cons_append, concat_cons, ih, concat_cons, append_assoc]

/-- Texts are joined by writing the separator in front of every text but the first. -/
theorem join_cons (sep t : Text) (ts : List Text) :
    join sep (t :: ts) = t ++ concat (ts.map fun u => sep ++ u) := by
  rw [join]
  induction ts generalizing t with
  | nil => simp
  | cons u ts ih => rw [List.foldl_cons, ih, List.map_cons, concat_cons]; simp [append_assoc]

/-- Whether a text begins with another one. -/
def startsWith (t start : Text) : Bool := start.size ≤ t.size && t.take start.size == start

/-- Whether a text ends with another one. -/
def endsWith (t ending : Text) : Bool :=
  ending.size ≤ t.size && t.drop (t.size - ending.size) == ending

/-- A natural number in decimal digits. -/
def ofNat (n : Nat) : Text := ofString n.repr

/-- An integer in decimal digits, with a minus sign below zero. -/
def ofInt (n : Int) : Text := ofString (if n < 0 then "-" ++ n.natAbs.repr else n.natAbs.repr)

end Text

end TinyScript
