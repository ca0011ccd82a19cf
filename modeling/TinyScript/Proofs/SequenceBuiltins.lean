import TinyScript.Proofs.Bounds
import TinyScript.Proofs.CallsBack

/-!
# Builtins on arrays and texts

What calls of the builtins that look into arrays and texts give. None of them calls anything back,
so such a call comes to one outcome, within any limits.
-/

namespace TinyScript

/-- A call of a builtin comes to a value in a store, and to nothing else. -/
def Builtin.Gives (b : Builtin) (args : List Value) (s : Store) (p : Value × Store) : Prop :=
  ∀ limits home o, Returns limits (.builtin b home) args s o ↔ o = .given p

/-- A new array has its elements. -/
@[simp] theorem Store.items_newArray_self (s : Store) (items : Array Value) :
    (s.newArray items).2.items s.arrays.size = items := by
  simp [newArray, Store.items]

/-- The end of a slice of `n` things: where a second number says, or behind the last one, but not in
front of the beginning. -/
def Number.sliceEnd (x : Float) (stop : Option Float) (n : Nat) : Nat :=
  max (clamp x n true) (stop.elim n fun y => clamp y n true)

/-- A slice does not end in front of its beginning. -/
theorem Number.clamp_le_sliceEnd (x : Float) (stop : Option Float) (n : Nat) :
    clamp x n true ≤ sliceEnd x stop n := Nat.le_max_left _ _

/-- A slice ends behind the last thing at most. -/
theorem Number.sliceEnd_le (x : Float) (stop : Option Float) (n : Nat) : sliceEnd x stop n ≤ n := by
  apply Nat.max_le.mpr ⟨clamp_le x n true, _⟩
  cases stop with
  | none => exact Nat.le_refl n
  | some y => exact clamp_le y n true

namespace Builtin

variable {b : Builtin} {args : List Value} {s : Store} {p : Value × Store}

/-- A builtin that replies with a value gives this value. -/
theorem gives_of_run (h : b.run s args = .value p.1 p.2) : b.Gives args s p := by
  intro limits home o
  rw [returns_builtin_iff, h]
  simp only [Reply.makes_value_iff]
  constructor
  · rintro ⟨calls, -, ho⟩
    exact ho
  · intro ho
    exact ⟨[], rfl, ho⟩

/-- What a call gives, it gives alone. -/
theorem Gives.unique {p' : Value × Store} (h : b.Gives args s p) (h' : b.Gives args s p') :
    p = p' := by
  have hgiven := (h' ⟨none, none⟩ 0 _).mp ((h ⟨none, none⟩ 0 _).mpr rfl)
  simp only [Outcome.given, Outcome.mk.injEq, Except.ok.injEq] at hgiven
  exact Prod.ext hgiven.1 hgiven.2

/-- A builtin that only looks at its arguments gives the result and leaves the store as it is. -/
theorem gives_of_pure {v : Value} (harity : checkArity b args.length = .ok ())
    (h : b.pureResult? s args = some (.ok v)) : b.Gives args s (v, s) := by
  apply gives_of_run
  rw [run, harity, h]

/-- A builtin that acts on the store gives what it acts out. -/
theorem gives_of_effect {act : Store → Reply} (harity : checkArity b args.length = .ok ())
    (hpure : b.pureResult? s args = none) (h : b.effect s args = .ok act)
    (hact : act s = .value p.1 p.2) : b.Gives args s p := by
  apply gives_of_run
  rw [run, harity, hpure, h]
  exact hact

variable (s) (r : ArrayRef) (t sep : Text)

/-- The length of a text is its number of characters. -/
theorem gives_length_text : length.Gives [.string t] s (.number (.ofNat t.length), s) :=
  gives_of_run rfl

/-- The length of an array is its number of elements. -/
theorem gives_length_array : length.Gives [.array r] s (.number (.ofNat (s.items r).size), s) :=
  gives_of_run rfl

/-- The length of a new array is the number of elements it was made of. -/
theorem gives_length_newArray (items : Array Value) :
    length.Gives [(s.newArray items).1] (s.newArray items).2
      (.number (.ofNat items.size), (s.newArray items).2) := by
  have hgives := gives_length_array (s.newArray items).2 s.arrays.size
  rwa [Store.items_newArray_self] at hgives

/-- The test for equality compares as programs see it. -/
theorem gives_equal (v w : Value) : equal.Gives [v, w] s (.boolean (v.same w), s) :=
  gives_of_run rfl

/-- A number is at least as large as another one unless it is below that one. -/
theorem gives_greaterEqual (x y : Float) :
    greaterEqual.Gives [.number x, .number y] s (.boolean (!decide (x < y)), s) :=
  gives_of_run rfl

/-- Two texts are joined one behind the other. -/
theorem gives_concat (u v : Text) :
    concat.Gives [.string u, .string v] s (.string (u ++ v), s) := by
  refine gives_of_pure rfl ?_
  change some (Except.ok (Value.string (Text.concat [u, v]))) = _
  rw [Text.concat_cons, Text.concat_cons, Text.concat_nil, Text.append_empty]

/-- Splitting gives a new array of the pieces. -/
theorem gives_split :
    split.Gives [.string t, .string sep] s (s.newArray ((t.split sep).map .string).toArray) :=
  gives_of_run rfl

/-- Joining gives the texts of the elements with the separator between them. -/
theorem gives_join : join.Gives [.array r, .string sep] s
    (.string (Text.join sep ((s.items r).toList.map s.display)), s) :=
  gives_of_run rfl

/-- Joining a new array of texts gives these texts with the separator between them. -/
theorem gives_join_newArray (ts : List Text) :
    join.Gives [(s.newArray (ts.map .string).toArray).1, .string sep]
      (s.newArray (ts.map .string).toArray).2
      (.string (Text.join sep ts), (s.newArray (ts.map .string).toArray).2) := by
  have hgives := gives_join (s.newArray (ts.map .string).toArray).2 s.arrays.size sep
  have hdisplay (s : Store) : (ts.map Value.string).map s.display = ts := by
    rw [List.map_map]
    exact List.map_id ts
  rwa [Store.items_newArray_self, List.toList_toArray, hdisplay] at hgives

variable {s r}

/-- A number that is an index is read as this index. -/
theorem indexAt_eq {x : Float} {k : Int} (hx : Number.toIndex? x = some k) (v : Value) :
    indexAt b [v, .number x] 1 = .ok k := by
  have hnumber : numberAt b [v, .number x] 1 = .ok x := rfl
  rw [indexAt, hnumber]
  simp [bind, Except.bind, pure, Except.pure, hx]

/-- The element at an index within bounds. -/
theorem gives_element {x : Float} {i : Nat} {v : Value} (hx : Number.toIndex? x = some (i : Int))
    (hv : (s.items r)[i]? = some v) : element.Gives [.array r, .number x] s (v, s) := by
  have hi : i < (s.items r).size := (Array.getElem?_eq_some_iff.mp hv).1
  refine gives_of_pure rfl ?_
  change some ((indexAt element [.array r, .number x] 1).bind fun k =>
    if k < 0 ∨ (s.items r).size ≤ k then .error (.indexOutOfBounds k (s.items r).size)
    else item (s.items r) k.toNat) = _
  rw [indexAt_eq hx]
  change some (if (i : Int) < 0 ∨ ((s.items r).size : Int) ≤ i then
    .error (.indexOutOfBounds i (s.items r).size) else item (s.items r) i) = _
  rw [if_neg (by omega), item, hv]

/-- The arguments that are a sequence and the bounds of a part of it. -/
def partOf (v : Value) (x : Float) (stop : Option Float) : List Value :=
  v :: .number x :: (stop.map Value.number).toList

variable (s r) (x : Float) (stop : Option Float)

/-- A slice takes a sequence and one or two bounds. -/
theorem checkArity_slice (v : Value) : checkArity slice (partOf v x stop).length = .ok () := by
  cases stop <;> rfl

/-- A slice of an array has the elements from one place to another. -/
theorem gives_slice_array : slice.Gives (partOf (.array r) x stop) s
    (s.newArray ((s.items r).extract (Number.clamp x (s.items r).size true)
      (Number.sliceEnd x stop (s.items r).size))) := by
  have hpart : part (s.items r) (Number.clamp x (s.items r).size true)
      (Number.sliceEnd x stop (s.items r).size) = .ok _ :=
    if_pos ⟨Number.clamp_le_sliceEnd x stop _, Number.sliceEnd_le x stop _⟩
  have heffect : slice.effect s (partOf (.array r) x stop) =
      (part (s.items r) (Number.clamp x (s.items r).size true)
        (Number.sliceEnd x stop (s.items r).size)).bind fun chosen =>
          .ok fun s => Reply.array s chosen := by
    cases stop <;> rfl
  rw [hpart] at heffect
  exact gives_of_effect (checkArity_slice x stop _) rfl heffect rfl

/-- Part of a text within its bounds is made of the characters there. -/
theorem textPart_of_le {first stop : Nat} (h : first ≤ stop) (hstop : stop ≤ t.length) :
    textPart t first stop = .ok (.string (.ofChars ((t.chars.take stop).drop first))) := by
  have hlength : t.length = t.chars.length := by rw [Text.chars, List.length_map, ← Text.length_eq]
  rw [textPart_eq, if_pos ⟨h, hlength ▸ hstop⟩]

/-- A slice of a text has the characters from one place to another. -/
theorem gives_slice_text : slice.Gives (partOf (.string t) x stop) s
    (.string (.ofChars ((t.chars.take (Number.sliceEnd x stop t.length)).drop
      (Number.clamp x t.length true))), s) := by
  have hpart := textPart_of_le t (Number.clamp_le_sliceEnd x stop _) (Number.sliceEnd_le x stop _)
  have heffect : slice.effect s (partOf (.string t) x stop) =
      (textPart t (Number.clamp x t.length true) (Number.sliceEnd x stop t.length)).bind fun v =>
        .ok (Reply.value v) := by
    cases stop <;> rfl
  rw [hpart] at heffect
  exact gives_of_effect (checkArity_slice x stop _) rfl heffect rfl

variable {x t}

/-- A substring has the characters between two places, whichever is given first. -/
theorem gives_substring {y : Float}
    (h : Number.clamp x t.length false ≤ Number.clamp y t.length false) :
    substring.Gives [.string t, .number x, .number y] s
      (.string (.ofChars ((t.chars.take (Number.clamp y t.length false)).drop
        (Number.clamp x t.length false))), s) ∧
    substring.Gives [.string t, .number y, .number x] s
      (.string (.ofChars ((t.chars.take (Number.clamp y t.length false)).drop
        (Number.clamp x t.length false))), s) := by
  have hpart := textPart_of_le t h (Number.clamp_le y t.length false)
  have hresult (x y : Float) : substring.pureResult? s [.string t, .number x, .number y] =
      some (if Number.clamp y t.length false < Number.clamp x t.length false then
        textPart t (Number.clamp y t.length false) (Number.clamp x t.length false)
        else textPart t (Number.clamp x t.length false) (Number.clamp y t.length false)) := rfl
  constructor
  · refine gives_of_pure rfl ?_
    rw [hresult, if_neg (Nat.not_lt.mpr h), hpart]
  · refine gives_of_pure rfl ?_
    rw [hresult]
    rcases Nat.lt_or_eq_of_le h with hlt | heq
    · rw [if_pos hlt, hpart]
    · rw [if_neg (Nat.not_lt.mpr (Nat.le_of_eq heq.symm)), ← heq]
      rw [← heq] at hpart
      rw [hpart]

/-- The character at an index within bounds. -/
theorem gives_charAt {i : Nat} (hnan : x.isNaN = false)
    (hx : Number.truncate (-1) t.length x = (i : Int)) (hi : i < t.length) :
    charAt.Gives [.string t, .number x] s
      (.string (.ofChars ((t.chars.take (i + 1)).drop i)), s) := by
  have hresult : charAt.pureResult? s [.string t, .number x] =
      some (if x.isNaN ∨ Number.truncate (-1) t.length x < 0 ∨
          (t.length : Int) ≤ Number.truncate (-1) t.length x then .ok (.string Text.empty)
        else textPart t (Number.truncate (-1) t.length x).toNat
          ((Number.truncate (-1) t.length x).toNat + 1)) := rfl
  refine gives_of_pure rfl ?_
  have hinside : ¬ (x.isNaN ∨ (i : Int) < 0 ∨ (t.length : Int) ≤ i) := by
    rw [hnan]
    simp
    omega
  rw [hresult, hx, if_neg hinside]
  exact congrArg some (textPart_of_le t (Nat.le_succ i) hi)

variable {s} {v w : Value} {found : Option Nat}

/-- The index of what is sought is the place where it was found, or minus one. -/
theorem gives_indexOf (h : position? indexOf s [v, w] = .ok found) :
    indexOf.Gives [v, w] s (.number (found.elim (-1) Float.ofNat), s) := by
  refine gives_of_pure rfl ?_
  change some ((position? indexOf s [v, w]).bind _) = _
  rw [h]
  cases found <;> rfl

/-- What is sought is included exactly if a place was found. -/
theorem gives_includes (h : position? includes s [v, w] = .ok found) :
    includes.Gives [v, w] s (.boolean found.isSome, s) := by
  refine gives_of_pure rfl ?_
  change some ((position? includes s [v, w]).bind _) = _
  rw [h]
  rfl

end Builtin

end TinyScript
