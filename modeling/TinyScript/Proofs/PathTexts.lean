import Mathlib.Data.Finset.Card
import TinyScript.Store.Printer

/-!
# Texts along a path

The text of a value by recursion: an array or an instance is written with what it holds, except
where it is one of those that it is written inside of. Working off tasks comes to the same text. The
depth that holders may nest to plays no part as soon as it exceeds the number of holders, since
those along a path are distinct.
-/

namespace TinyScript.Store

/-- The text of a value inside the holders of a path, if holders may nest so deep from there on. -/
def pathText (s : Store) : Nat → List Holder → Value → Text
  | 0, _, v => s.plainText v
  | n + 1, path, v =>
    match holder? v with
    | none => s.plainText v
    | some h =>
      if h ∈ path then s.plainText v
      else Text.concat ((s.pieces h).map fun
        | .text t => t
        | .value w => pathText s n (h :: path) w)

/-- The text of a piece inside the holders of a path. -/
def pieceText (s : Store) (n : Nat) (path : List Holder) : Piece → Text
  | .text t => t
  | .value v => s.pathText n path v

section Texts

variable (s : Store) {n : Nat} {path : List Holder} {v : Value} {h : Holder}

/-- What holds nothing is written plainly. -/
theorem pathText_plain (hv : holder? v = none) : s.pathText n path v = s.plainText v := by
  cases n with
  | zero => rfl
  | succ n => rw [pathText, hv]

/-- A holder that is written inside of itself is written plainly. -/
theorem pathText_inside (hv : holder? v = some h) (hmem : h ∈ path) :
    s.pathText n path v = s.plainText v := by
  cases n with
  | zero => rfl
  | succ n =>
    rw [pathText, hv]
    exact if_pos hmem

/-- A holder that is not on the path is written by its pieces, with itself on the path. -/
theorem pathText_open (hv : holder? v = some h) (hmem : h ∉ path) :
    s.pathText (n + 1) path v = Text.concat ((s.pieces h).map (s.pieceText n (h :: path))) := by
  rw [pathText, hv]
  dsimp only
  rw [if_neg hmem]
  rfl

end Texts

/-- The values among the pieces of an array are its elements. -/
theorem mem_of_mem_itemPieces {v : Value} {vs : List Value} (hv : Piece.value v ∈ itemPieces vs) :
    v ∈ vs := by
  have hfold : ∀ vs : List Value,
      Piece.value v ∈ vs.foldr (fun v more => Piece.text ", " :: .value v :: more) [] → v ∈ vs := by
    intro vs
    induction vs with
    | nil => simp
    | cons w vs ih => simpa using Or.imp_right ih
  cases vs with
  | nil => simp [itemPieces] at hv
  | cons w vs =>
    simp only [itemPieces, List.mem_cons, Piece.value.injEq] at hv
    exact List.mem_cons.mpr (hv.imp_right (hfold vs))

/-- The values among the pieces of an instance are those of its fields. -/
theorem mem_of_mem_fieldPieces {v : Value} {entries : List (Text × Value)}
    (hv : Piece.value v ∈ fieldPieces entries) : ∃ name, (name, v) ∈ entries := by
  have hfold : ∀ entries : List (Text × Value),
      Piece.value v ∈ entries.foldr (fun entry more =>
        Piece.text (", " ++ entry.1 ++ ": ") :: .value entry.2 :: more) [] →
          ∃ name, (name, v) ∈ entries := by
    intro entries
    induction entries with
    | nil => simp
    | cons entry entries ih =>
      intro hv
      simp only [List.foldr_cons, List.mem_cons, reduceCtorEq, Piece.value.injEq, false_or] at hv
      rcases hv with rfl | hv
      · exact ⟨entry.1, List.mem_cons_self⟩
      · obtain ⟨name, hname⟩ := ih hv
        exact ⟨name, List.mem_cons_of_mem _ hname⟩
  cases entries with
  | nil => simp [fieldPieces] at hv
  | cons entry entries =>
    simp only [fieldPieces, List.mem_cons, reduceCtorEq, Piece.value.injEq, false_or] at hv
    rcases hv with rfl | hv
    · exact ⟨entry.1, List.mem_cons_self⟩
    · obtain ⟨name, hname⟩ := hfold entries hv
      exact ⟨name, List.mem_cons_of_mem _ hname⟩

/-- The values that a holder holds. -/
def held (s : Store) : Holder → List Value
  | .array r => (s.items r).toList
  | .object r => (s.fields r).toList.map Prod.snd

/-- The values among the pieces of a holder are held by it. -/
theorem mem_held_of_mem_pieces (s : Store) {v : Value} {h : Holder}
    (hv : Piece.value v ∈ s.pieces h) : v ∈ s.held h := by
  cases h with
  | array r => exact mem_of_mem_itemPieces (by simpa [held, pieces] using hv)
  | object r =>
    obtain ⟨name, hmem⟩ : ∃ name, (name, v) ∈ (s.fields r).toList :=
      mem_of_mem_fieldPieces (by simpa [pieces] using hv)
    exact List.mem_map_of_mem hmem

section Tasks

variable (s : Store) {n : Nat} {opened opened' : Std.HashSet Holder} {out : Text} {v : Value}
  {h : Holder} {rest tasks : List Task} {path : List Holder}

/-- Without tasks, all is written. -/
theorem write_nil : s.write opened out [] = out := by rw [write.eq_def]

/-- A text is written as it is. -/
theorem write_text (t : Text) :
    s.write opened out (.text t :: rest) = s.write opened (out ++ t) rest := by
  rw [write.eq_def]

/-- A holder that was left is no longer open. -/
theorem write_leave :
    s.write opened out (.leave h :: rest) = s.write (opened.erase h) out rest := by
  rw [write.eq_def]

/-- What holds nothing is written plainly. -/
theorem write_none (hv : holder? v = none) :
    s.write opened out (.value n v :: rest) = s.write opened (out ++ s.plainText v) rest := by
  rw [write.eq_def]
  dsimp only
  split
  · rename_i hsome
    cases hv.symm.trans hsome
  · rfl

/-- A value at the bottom is written plainly. -/
theorem write_zero :
    s.write opened out (.value 0 v :: rest) = s.write opened (out ++ s.plainText v) rest := by
  rw [write.eq_def]
  dsimp only
  split
  · rename_i hsucc
    cases hsucc
  · rfl

/-- A holder that is open is written plainly, and any other one is opened, written by its pieces,
and left. -/
theorem write_some (hv : holder? v = some h) :
    s.write opened out (.value (n + 1) v :: rest) =
      if opened.contains h then s.write opened (out ++ s.plainText v) rest
      else s.write (opened.insert h) out
        ((s.pieces h).map (Task.ofPiece n) ++ .leave h :: rest) := by
  rw [write.eq_def]
  dsimp only
  split
  · rename_i h' n' hsome heq
    obtain rfl := Option.some.inj (hv.symm.trans hsome)
    obtain rfl := Nat.succ.inj heq
    rfl
  · rename_i hnone
    exact (hnone h n hv rfl).elim

/-- What is written depends on which holders are open, not on how they are stored. -/
theorem write_congr (hopened : ∀ h, opened.contains h = opened'.contains h) :
    s.write opened out tasks = s.write opened' out tasks := by
  induction opened, out, tasks using write.induct s generalizing opened' with
  | case1 => rw [write_nil, write_nil]
  | case2 opened out t rest ih => rw [write_text, write_text, ih hopened]
  | case3 opened out h rest ih =>
    rw [write_leave, write_leave]
    refine ih fun other => ?_
    rw [Std.HashSet.contains_erase, Std.HashSet.contains_erase, hopened]
  | case4 opened out v rest h n hv hcontains ih =>
    rw [write_some s hv, write_some s hv, ← hopened, if_pos hcontains, if_pos hcontains]
    exact ih hopened
  | case5 opened out v rest h n hv hcontains ih =>
    rw [write_some s hv, write_some s hv, ← hopened, if_neg hcontains, if_neg hcontains]
    refine ih fun other => ?_
    rw [Std.HashSet.contains_insert, Std.HashSet.contains_insert, hopened]
  | case6 opened out depth v rest hplain ih =>
    cases hv : holder? v with
    | none => rw [write_none s hv, write_none s hv, ih hopened]
    | some h =>
      cases depth with
      | zero => rw [write_zero, write_zero, ih hopened]
      | succ n => exact (hplain h n hv rfl).elim

/-- A list of pieces is written one by one, if values are. -/
theorem write_pieces {n : Nat} {opened : Std.HashSet Holder} {path : List Holder}
    (hvalue : ∀ out v rest, s.write opened out (.value n v :: rest) =
      s.write opened (out ++ s.pathText n path v) rest)
    (ps : List Piece) (out : Text) (rest : List Task) :
    s.write opened out (ps.map (Task.ofPiece n) ++ rest) =
      s.write opened (out ++ Text.concat (ps.map (s.pieceText n path))) rest := by
  induction ps generalizing out with
  | nil => simp
  | cons p ps ih =>
    cases p with
    | text t =>
      rw [List.map_cons, List.cons_append, Task.ofPiece, write_text, ih, List.map_cons, pieceText,
        Text.concat_cons, Text.append_assoc]
    | value v =>
      rw [List.map_cons, List.cons_append, Task.ofPiece, hvalue, ih, List.map_cons, pieceText,
        Text.concat_cons, Text.append_assoc]

/-- A value is written as its text along the path of the open holders. -/
theorem write_value (hopened : ∀ h, opened.contains h = true ↔ h ∈ path) :
    s.write opened out (.value n v :: rest) =
      s.write opened (out ++ s.pathText n path v) rest := by
  induction n generalizing opened path out v rest with
  | zero => exact s.write_zero
  | succ n ih =>
    cases hv : holder? v with
    | none => rw [write_none s hv, pathText_plain s hv]
    | some h =>
      rw [write_some s hv]
      by_cases hmem : h ∈ path
      · rw [if_pos ((hopened h).mpr hmem), pathText_inside s hv hmem]
      · have hinsert : ∀ other, (opened.insert h).contains other = true ↔ other ∈ h :: path := by
          intro other
          rw [Std.HashSet.contains_insert, Bool.or_eq_true, hopened, beq_iff_eq, List.mem_cons,
            eq_comm]
        rw [if_neg fun hcontains => hmem ((hopened h).mp hcontains),
          s.write_pieces (fun out v rest => ih hinsert), write_leave, ← pathText_open s hv hmem]
        refine s.write_congr fun other => ?_
        rw [Std.HashSet.contains_erase, Std.HashSet.contains_insert]
        by_cases hother : h = other
        · subst hother
          have hclosed : opened.contains h = false := by
            rw [Bool.eq_false_iff]
            exact fun hcontains => hmem ((hopened h).mp hcontains)
          rw [beq_self_eq_true, hclosed]
          rfl
        · rw [beq_eq_false_iff_ne.mpr hother]
          rfl

end Tasks

/-- The holders of a store. -/
def holders (s : Store) : Finset Holder :=
  ((List.range s.arrays.size).map Holder.array ++
    (List.range s.instances.size).map Holder.object).toFinset

/-- How many holders are not on a path. -/
def room (s : Store) (path : List Holder) : Nat := (s.holders \ path.toFinset).card

section Depth

variable (s : Store) {n m : Nat} {path : List Holder} {v : Value} {h : Holder}

/-- There is no more room than there are holders in the store. -/
theorem room_le (path : List Holder) : s.room path ≤ s.arrays.size + s.instances.size := by
  refine (Finset.card_le_card Finset.sdiff_subset).trans ((List.toFinset_card_le _).trans ?_)
  simp

/-- A holder that is put on the path takes up room. -/
theorem room_cons_lt (hholder : h ∈ s.holders) (hmem : h ∉ path) :
    s.room (h :: path) < s.room path := by
  refine Finset.card_lt_card (Finset.ssubset_iff_subset_ne.mpr ⟨?_, ?_⟩)
  · intro other
    simp only [List.toFinset_cons, Finset.mem_sdiff, Finset.mem_insert, not_or]
    exact fun hother => ⟨hother.1, hother.2.2⟩
  · intro heq
    have hleft : h ∈ s.holders \ (h :: path).toFinset := by
      rw [heq]
      simpa using ⟨hholder, hmem⟩
    simp at hleft

/-- What a store does not have holds nothing. -/
theorem mem_holders_of_held {w : Value} (hw : w ∈ s.held h) : h ∈ s.holders := by
  cases h with
  | array r =>
    have hr : r < s.arrays.size := by
      by_contra hr
      simp [held, items, Array.getElem?_eq_none (Nat.le_of_not_lt hr)] at hw
    simpa [holders] using hr
  | object r =>
    have hr : r < s.instances.size := by
      by_contra hr
      have hfields : (s.fields r).toList = [] := by
        rw [fields, Array.getElem?_eq_none (Nat.le_of_not_lt hr)]
        rfl
      simp [held, hfields] at hw
    simpa [holders] using hr

/-- A depth that exceeds the room is as good as any larger one. -/
theorem pathText_of_room (hroom : s.room path < n) (hle : n ≤ m) :
    s.pathText m path v = s.pathText n path v := by
  induction n generalizing m path v with
  | zero => exact absurd hroom (Nat.not_lt_zero _)
  | succ n ih =>
    obtain ⟨m, rfl⟩ : ∃ k, m = k + 1 := ⟨m - 1, by omega⟩
    cases hv : holder? v with
    | none => rw [pathText_plain s hv, pathText_plain s hv]
    | some h =>
      by_cases hmem : h ∈ path
      · rw [pathText_inside s hv hmem, pathText_inside s hv hmem]
      · rw [pathText_open s hv hmem, pathText_open s hv hmem]
        refine congrArg Text.concat (List.map_congr_left fun p hp => ?_)
        cases p with
        | text t => rfl
        | value w =>
          have hholder : h ∈ s.holders := s.mem_holders_of_held (s.mem_held_of_mem_pieces hp)
          exact ih (Nat.lt_of_lt_of_le (s.room_cons_lt hholder hmem) (Nat.le_of_lt_succ hroom))
            (Nat.le_of_succ_le_succ hle)

end Depth

/-- The text of a value is its text along the empty path, with any depth that is large enough. -/
theorem sourceText_eq_pathText (s : Store) (v : Value) {n : Nat}
    (hn : s.arrays.size + s.instances.size < n) : s.sourceText v = s.pathText n [] v := by
  have hroom : s.room [] < s.arrays.size + s.instances.size + 1 :=
    Nat.lt_succ_of_le (s.room_le [])
  unfold sourceText
  cases hv : holder? v with
  | none => exact (pathText_plain s hv).symm
  | some h =>
    dsimp only
    have hopened : ∀ h, (∅ : Std.HashSet Holder).contains h = true ↔ h ∈ ([] : List Holder) := by
      simp
    rw [s.write_value hopened, write_nil, Text.empty_append, s.pathText_of_room hroom hn]

end TinyScript.Store
