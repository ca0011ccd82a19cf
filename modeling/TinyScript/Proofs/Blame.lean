import TinyScript.Proofs.Answers

/-!
# What builtins blame

A builtin that fails blames its arguments or the output. It never blames the end of a text, and it
never reaches outside of what it looks at: the least number of arguments in its signature covers
every argument that it reads, and places in arrays and texts are kept within bounds, whatever number
they come from.
-/

namespace TinyScript

namespace Number

/-- A position among some things is at most their number, whatever number it comes from. -/
theorem clamp_le (x : Float) (n : Nat) (fromEnd : Bool) : clamp x n fromEnd ≤ n := by
  unfold clamp
  dsimp only
  split_ifs <;> omega

end Number

namespace Text

/-- A text is found inside the other one, and what is empty in front of everything. -/
theorem le_size_of_find? {t needle : Text} {i : Nat} (h : t.find? needle = some i) :
    i ≤ t.size := by
  obtain ⟨-, hoccurs, hfirst⟩ := findFrom_eq_some_iff.mp h
  by_cases hneedle : 0 < needle.size
  · have hend := hoccurs.le_size hneedle
    omega
  · have hempty : needle.bytes = [] := by
      rw [← List.length_eq_zero_iff, ← size_eq_length]
      omega
    have hstart : OccursAt t needle 0 := by
      apply Text.ext
      simp [size_eq_length, hempty]
    by_contra hi
    exact hfirst 0 (Nat.zero_le 0) (by omega) hstart

end Text

namespace Sorting

variable {α : Type}

/-- A search asks only about numbers in its range. -/
theorem search_congr {question question' : Nat → Query α Bool} {n low high : Nat}
    (h : ∀ i, low ≤ i → i < high → question i = question' i) :
    search question n low high = search question' n low high := by
  induction n generalizing low high with
  | zero => rfl
  | succ n ih =>
    simp only [search]
    split_ifs with hlt
    · have hmiddle := h ((low + high) / 2) (by omega) (by omega)
      have hbelow := @ih low ((low + high) / 2) fun i hi hi' => h i hi (by omega)
      have habove := @ih ((low + high) / 2 + 1) high fun i hi hi' => h i (by omega) hi'
      rw [hmiddle, hbelow, habove]
    · rfl

variable {compare compare' : Array α → Nat → Nat → Query α Bool}

/-- Merging compares only places that are there: single elements are compared with the rest, and
longer lists are cut first. -/
theorem mergeBy_congr
    (h : ∀ xs i j, i < xs.size → j < xs.size → compare xs i j = compare' xs i j)
    (n : Nat) (xs ys : List α) : mergeBy compare n xs ys = mergeBy compare' n xs ys := by
  induction n generalizing xs ys with
  | zero => rfl
  | succ n ih =>
    have hsize : (xs ++ ys).toArray.size = xs.length + ys.length := by simp
    rw [mergeBy, mergeBy]
    dsimp only
    split_ifs with hempty hone hlast
    · rfl
    all_goals
      have hpos : 0 < xs.length ∧ 0 < ys.length := by
        simpa [List.length_pos_iff] using hempty
    · rw [search_congr fun i _ hi => by rw [h _ i 0 hi (by omega)]]
    · rw [search_congr fun i _ hi => h _ xs.length i (by omega) (by omega)]
    all_goals
      rw [search_congr fun c hlow hhigh => h _ _ c (by omega) (by omega)]
      simp only [ih]

/-- Merging pairs of blocks only asks for comparisons at places within the blocks. -/
theorem mergePairsBy_congr
    (h : ∀ xs i j, i < xs.size → j < xs.size → compare xs i j = compare' xs i j)
    (done blocks : List (List α)) :
    mergePairsBy compare done blocks = mergePairsBy compare' done blocks := by
  fun_induction mergePairsBy compare done blocks with
  | case1 done a b rest ih => simp only [mergePairsBy, mergeBy_congr h, ih]
  | case2 done rest hrest => rw [mergePairsBy.eq_2 _ _ _ hrest]

/-- Merging all blocks into one only asks for comparisons at places within the blocks. -/
theorem mergeAllBy_congr
    (h : ∀ xs i j, i < xs.size → j < xs.size → compare xs i j = compare' xs i j)
    (n : Nat) (blocks : List (List α)) :
    mergeAllBy compare n blocks = mergeAllBy compare' n blocks := by
  induction n generalizing blocks with
  | zero => rfl
  | succ n ih => simp only [mergeAllBy, mergePairsBy_congr h, ih]

/-- Sorting compares only places that are there. -/
theorem sortBy_congr
    (h : ∀ xs i j, i < xs.size → j < xs.size → compare xs i j = compare' xs i j)
    (xs : List α) : sortBy compare xs = sortBy compare' xs := by
  simp only [sortBy, mergeAllBy_congr h]

end Sorting

/-- A computation that may fail, with a property of the cause that it blames and one of what it
gives. -/
def Meets {α : Type} (P : Cause → Prop) (Q : α → Prop) : Except Cause α → Prop
  | .ok a => Q a
  | .error cause => P cause

/-- A computation that may fail, with a property of the cause that it blames. -/
abbrev Blames {α : Type} (P : Cause → Prop) (x : Except Cause α) : Prop := Meets P (fun _ => True) x

section Blames

variable {α β : Type} {P : Cause → Prop}

/-- A computation that gives a value blames nothing. -/
theorem blames_pure (a : α) : Blames P (pure a : Except Cause α) := trivial

/-- A computation that gives a value blames nothing and has every property that the value has. -/
theorem meets_pure {Q : α → Prop} {a : α} (h : Q a) : Meets P Q (pure a : Except Cause α) := h

/-- Two computations one after the other, the second of which relies on what the first one gives. -/
theorem Meets.andThen {Q : α → Prop} {R : β → Prop} {x : Except Cause α} {f : α → Except Cause β}
    (hx : Meets P Q x) (hf : ∀ a, Q a → Meets P R (f a)) : Meets P R (x >>= f) := by
  cases x with
  | error cause => exact hx
  | ok a => exact hf a hx

/-- Two computations one after the other. -/
theorem Blames.bind {Q : β → Prop} {x : Except Cause α} {f : α → Except Cause β} (hx : Blames P x)
    (hf : ∀ a, Meets P Q (f a)) : Meets P Q (x >>= f) :=
  hx.andThen fun a _ => hf a

end Blames

/-- The cause of a failure has a property. -/
def Reply.Blames (P : Cause → Prop) : Reply → Prop
  | failure cause _ => P cause
  | _ => True

/-- Whether a cause is one that a running program can have: none of those of a text which is not
read to its end, and not an access outside of bounds. -/
def Cause.isRegular : Cause → Bool
  | unexpectedEnd | unterminatedString | expectedSeparator true | outOfRange => false
  | _ => true

/-- The cause is one that a running program can have. -/
abbrev Cause.IsRegular (cause : Cause) : Prop := cause.isRegular = true

/-- A cause that a running program can have is never the end of a text. -/
theorem Cause.IsRegular.isIncomplete {cause : Cause} (h : cause.IsRegular) :
    cause.isIncomplete = false := by
  cases cause with
  | unexpectedEnd | unterminatedString => cases h
  | expectedSeparator atEnd =>
    cases atEnd with
    | true => cases h
    | false => rfl
  | _ => rfl

/-- A cause that a running program can have is never an access outside of bounds. -/
theorem Cause.IsRegular.ne_outOfRange {cause : Cause} (h : cause.IsRegular) :
    cause ≠ .outOfRange := by
  rintro rfl
  cases h

namespace Builtin

variable {b : Builtin} {s : Store} {args : List Value} {i : Nat}

/-- Reading an argument that is there blames nothing irregular. -/
theorem blames_argument (hi : i < args.length) : Blames Cause.IsRegular (argument args i) := by
  unfold argument
  rw [List.getElem?_eq_getElem hi]
  trivial

/-- Reading the arguments from a place within bounds on blames nothing irregular. -/
theorem blames_argumentsFrom (hi : i ≤ args.length) :
    Blames Cause.IsRegular (argumentsFrom args i) := by
  rw [argumentsFrom, if_pos hi]
  trivial

/-- A value that is no number is a regular cause. -/
theorem blames_toNumber {operation : Text} {v : Value} :
    Blames Cause.IsRegular (v.toNumber operation) := by
  cases v <;> trivial

/-- Reading a number among the arguments blames nothing irregular. -/
theorem blames_numberAt (hi : i < args.length) : Blames Cause.IsRegular (numberAt b args i) :=
  (blames_argument hi).bind fun _ => blames_toNumber

/-- Reading a text among the arguments blames nothing irregular. -/
theorem blames_textAt (hi : i < args.length) : Blames Cause.IsRegular (textAt b args i) :=
  (blames_argument hi).bind fun v => by cases v <;> trivial

/-- Reading an array among the arguments blames nothing irregular. -/
theorem blames_arrayAt (hi : i < args.length) : Blames Cause.IsRegular (arrayAt b args i) :=
  (blames_argument hi).bind fun v => by cases v <;> trivial

/-- Reading a function among the arguments blames nothing irregular. -/
theorem blames_callableAt (hi : i < args.length) : Blames Cause.IsRegular (callableAt b args i) :=
  (blames_argument hi).bind fun v => by
    unfold Value.toCallable
    split <;> trivial

/-- Reading an instance among the arguments blames nothing irregular. -/
theorem blames_instanceAt (hi : i < args.length) : Blames Cause.IsRegular (instanceAt b args i) :=
  (blames_argument hi).bind fun v => by cases v <;> trivial

/-- Reading an index among the arguments blames nothing irregular. -/
theorem blames_indexAt (hi : i < args.length) : Blames Cause.IsRegular (indexAt b args i) :=
  (blames_numberAt hi).bind fun _ => by split <;> trivial

/-- An optional position is one among the things there are. -/
theorem meets_stopAt {n : Nat} {fromEnd : Bool} :
    Meets Cause.IsRegular (· ≤ n) (stopAt b args i n fromEnd) := by
  unfold stopAt
  split
  · rename_i hi
    exact (blames_numberAt hi).bind fun x => meets_pure (Number.clamp_le x n fromEnd)
  · exact meets_pure (Nat.le_refl n)

/-- Part of a text within its bounds is taken without an irregular cause. -/
theorem blames_textPart {t : Text} {first stop : Nat} (hfirst : first ≤ stop)
    (hstop : stop ≤ t.length) : Blames Cause.IsRegular (textPart t first stop) := by
  rw [textPart, if_pos ⟨hfirst, hstop⟩]
  trivial

/-- An element within bounds is read without an irregular cause. -/
theorem blames_item {α : Type} {xs : Array α} (hi : i < xs.size) :
    Blames Cause.IsRegular (item xs i) := by
  unfold item
  rw [Array.getElem?_eq_getElem hi]
  trivial

/-- Part of an array within its bounds is taken without an irregular cause. -/
theorem blames_part {α : Type} {xs : Array α} {first stop : Nat} (hfirst : first ≤ stop)
    (hstop : stop ≤ xs.size) : Blames Cause.IsRegular (part xs first stop) := by
  rw [part, if_pos ⟨hfirst, hstop⟩]
  trivial

/-- Asking which of two values comes before the other blames nothing irregular. -/
theorem blames_comesBefore {operation : Text} {x y : Value} :
    Blames Cause.IsRegular (comesBefore operation x y) := by
  unfold comesBefore
  split <;> trivial

/-- Comparing the first two arguments blames nothing irregular. -/
theorem blames_compare {test : Bool → Bool → Bool} (hargs : 2 ≤ args.length) :
    Blames Cause.IsRegular (compare b test args) :=
  (blames_argument (by omega)).bind fun _ => (blames_argument hargs).bind fun _ =>
    blames_comesBefore.bind fun _ => blames_comesBefore.bind fun _ => blames_pure _

/-- Arithmetic on the first two arguments blames nothing irregular. -/
theorem blames_arithmetic {op : Float → Float → Float} (hargs : 2 ≤ args.length) :
    Blames Cause.IsRegular (arithmetic b op args) :=
  (blames_numberAt (by omega)).bind fun _ => (blames_numberAt hargs).bind fun _ => blames_pure _

/-- Arithmetic on the first argument blames nothing irregular. -/
theorem blames_unary {op : Float → Float} (hargs : 1 ≤ args.length) :
    Blames Cause.IsRegular (unary b op args) :=
  (blames_numberAt hargs).bind fun _ => blames_pure _

/-- Going through numbers for the least or greatest one blames nothing irregular. -/
theorem blames_extreme {op : Float → Float → Float} (best : Float) (vs : List Value) :
    Blames Cause.IsRegular (extreme b op best vs) := by
  induction vs generalizing best with
  | nil => trivial
  | cons v rest ih =>
    refine blames_toNumber.bind fun x => ?_
    split
    · trivial
    · exact ih _

/-- Looking for a value in a text or an array blames nothing irregular. -/
theorem blames_position? (hargs : 2 ≤ args.length) :
    Blames Cause.IsRegular (position? b s args) := by
  refine (blames_argument (by omega)).bind fun haystack =>
    (blames_argument hargs).bind fun needle => ?_
  split
  · trivial
  · rename_i t
    refine Blames.bind (by cases needle <;> trivial) fun sought => ?_
    split
    · rename_i i hfind
      have hbefore : Blames Cause.IsRegular (lengthBefore t i) := by
        rw [lengthBefore, if_pos (Text.le_size_of_find? hfind)]
        trivial
      exact hbefore.bind fun _ => blames_pure _
    · trivial
  · trivial

/-- A text that does not get too long is repeated no more often than can be counted. -/
theorem blames_repeated {t : Text} {count : Int} : Blames Cause.IsRegular (repeated t count) := by
  unfold repeated
  split_ifs with hnegative hlong
  · trivial
  · trivial
  · have hsize : t.size * count.toNat ≤ greatestSize := by
      by_cases hcount : 0 < count
      · have hle : t.size ≤ longestText / count.toNat := by
          by_contra hlt
          exact hlong ⟨hcount, by omega⟩
        calc
          t.size * count.toNat ≤ longestText := (Nat.le_div_iff_mul_le (by omega)).mp hle
          _ ≤ greatestSize := by decide
      · rw [Int.toNat_of_nonpos (by omega)]
        exact Nat.zero_le _
    rw [copies, if_pos ⟨by omega, hsize⟩]
    trivial

/-- A builtin that changes nothing reads no argument beyond the least number of them, and keeps to
the bounds of what it looks at. -/
theorem blames_pureResult (hargs : b.signature.least ≤ args.length) {result : Except Cause Value}
    (h : pureResult? b s args = some result) : Blames Cause.IsRegular result := by
  cases b with
  | subtract | multiply | divide =>
    obtain rfl := Option.some.inj h
    exact blames_arithmetic hargs
  | less | greater | lessEqual | greaterEqual =>
    obtain rfl := Option.some.inj h
    exact blames_compare hargs
  | abs | floor | ceil | round =>
    obtain rfl := Option.some.inj h
    exact blames_unary hargs
  | min | max =>
    obtain rfl := Option.some.inj h
    exact blames_extreme _ _
  | concat | undeclared =>
    obtain rfl := Option.some.inj h
    trivial
  | negation | typeOf =>
    obtain rfl := Option.some.inj h
    exact (blames_argument hargs).bind fun _ => blames_pure _
  | toLowerCase | toUpperCase | trim =>
    obtain rfl := Option.some.inj h
    exact (blames_textAt hargs).bind fun _ => blames_pure _
  | includes | indexOf =>
    obtain rfl := Option.some.inj h
    exact (blames_position? hargs).bind fun _ => blames_pure _
  | equal | notEqual | conjunction | disjunction =>
    obtain rfl := Option.some.inj h
    exact (blames_argument (Nat.lt_of_succ_lt hargs)).bind fun _ =>
      (blames_argument hargs).bind fun _ => blames_pure _
  | startsWith | endsWith =>
    obtain rfl := Option.some.inj h
    exact (blames_textAt (Nat.lt_of_succ_lt hargs)).bind fun _ =>
      (blames_textAt hargs).bind fun _ => blames_pure _
  | replace =>
    obtain rfl := Option.some.inj h
    have hargs : 3 ≤ args.length := hargs
    exact (blames_textAt (by omega)).bind fun _ => (blames_textAt (by omega)).bind fun _ =>
      (blames_textAt hargs).bind fun _ => blames_pure _
  | repeatText =>
    obtain rfl := Option.some.inj h
    exact (blames_textAt (Nat.lt_of_succ_lt hargs)).bind fun _ =>
      (blames_indexAt hargs).bind fun _ => blames_repeated.bind fun _ => blames_pure _
  | join =>
    obtain rfl := Option.some.inj h
    refine (blames_arrayAt hargs).bind fun _ => ?_
    split
    · rename_i hsep
      exact (blames_textAt hsep).bind fun _ => blames_pure _
    · trivial
  | add =>
    obtain rfl := Option.some.inj h
    refine (blames_argument (Nat.lt_of_succ_lt hargs)).bind fun x =>
      (blames_argument hargs).bind fun y => ?_
    split
    · trivial
    · trivial
    · exact blames_arithmetic hargs
  | substring =>
    obtain rfl := Option.some.inj h
    refine (blames_textAt (Nat.lt_of_succ_lt hargs)).bind fun t =>
      (blames_numberAt hargs).bind fun x => meets_stopAt.andThen fun stop hstop => ?_
    have hfirst := Number.clamp_le x t.length false
    split
    · exact blames_textPart (by omega) hfirst
    · exact blames_textPart (by omega) hstop
  | charAt =>
    obtain rfl := Option.some.inj h
    refine (blames_textAt (Nat.lt_of_succ_lt hargs)).bind fun t =>
      (blames_numberAt hargs).bind fun x => ?_
    dsimp only
    split_ifs with hplace
    · trivial
    · exact blames_textPart (Nat.le_succ _) (by omega)
  | length =>
    obtain rfl := Option.some.inj h
    refine (blames_argument hargs).bind fun v => ?_
    split <;> trivial
  | element =>
    obtain rfl := Option.some.inj h
    refine (blames_arrayAt (Nat.lt_of_succ_lt hargs)).bind fun r =>
      (blames_argument hargs).bind fun v => ?_
    split
    · refine (blames_indexAt hargs).bind fun i => ?_
      split_ifs with hplace
      · trivial
      · exact blames_item (by omega)
    · trivial
  | get =>
    obtain rfl := Option.some.inj h
    exact (blames_instanceAt (Nat.lt_of_succ_lt hargs)).bind fun _ =>
      (blames_textAt hargs).bind fun _ => blames_pure _
  | _ => cases h

end Builtin

namespace Reply

variable {P : Cause → Prop} (s : Store) (f : Value) (done rest : List Value)

/-- Mapping is never a failure of the builtin itself. -/
theorem blames_map : (map s f done rest).Blames P := by cases rest <;> trivial

/-- Filtering is never a failure of the builtin itself. -/
theorem blames_filter : (filter s f done rest).Blames P := by cases rest <;> trivial

/-- Visiting is never a failure of the builtin itself. -/
theorem blames_visit : (visit s f rest).Blames P := by cases rest <;> trivial

/-- Finding is never a failure of the builtin itself. -/
theorem blames_find : (find s f rest).Blames P := by cases rest <;> trivial

/-- Folding is never a failure of the builtin itself. -/
theorem blames_fold (acc : Value) : (fold s f acc rest).Blames P := by cases rest <;> trivial

/-- Sorting by a function is never a failure of the builtin itself. -/
theorem blames_sort (query : Query Value (List Value)) : (sort s f query).Blames P := by
  cases query <;> trivial

end Reply

namespace Builtin

variable {b : Builtin} {s : Store} {args : List Value}

/-- The computation, and the reply it leads to, blame only what a running program can have. -/
abbrev RegularEffect (s : Store) (x : Except Cause (Store → Reply)) : Prop :=
  Meets Cause.IsRegular (fun act => (act s).Blames Cause.IsRegular) x

/-- A builtin that goes through an array with a function blames nothing irregular. -/
theorem regularEffect_callback {start : Store → Value → List Value → Reply}
    (hargs : 2 ≤ args.length) (h : ∀ f items, (start s f items).Blames Cause.IsRegular) :
    RegularEffect s (callback b s args start) :=
  (blames_arrayAt (by omega)).bind fun _ => (blames_callableAt hargs).bind fun _ =>
    meets_pure (h _ _)

/-- Answering the comparisons of a sort by the natural order blames nothing irregular. -/
theorem blames_run_query {q : Query Value (List Value)} {operation : Text} :
    Blames Cause.IsRegular (q.run (comesBefore operation)) := by
  induction q with
  | done items => trivial
  | ask x y next ih =>
    have hanswer : Blames Cause.IsRegular (comesBefore operation x y) := blames_comesBefore
    rw [Query.run]
    split
    · rename_i cause hcause
      rwa [hcause] at hanswer
    · exact ih _

/-- A builtin that changes the store or calls back reads no argument beyond the least number of
them, and keeps to the bounds of what it looks at. -/
theorem regularEffect_effect (hargs : b.signature.least ≤ args.length)
    (hpure : pureResult? b s args = none) : RegularEffect s (effect b s args) := by
  cases b with
  | random | array => trivial
  | split =>
    exact (blames_textAt (Nat.lt_of_succ_lt hargs)).bind fun _ =>
      (blames_textAt hargs).bind fun _ => meets_pure trivial
  | push =>
    exact (blames_arrayAt (Nat.lt_of_succ_lt hargs)).bind fun _ =>
      (blames_argumentsFrom (Nat.le_of_succ_le hargs)).bind fun _ => meets_pure trivial
  | pop =>
    refine (blames_arrayAt hargs).bind fun r => ?_
    split_ifs with hempty
    · trivial
    · have hpos : 0 < (s.items r).size := by
        rw [Array.isEmpty_iff_size_eq_zero] at hempty
        omega
      exact (blames_item (by omega)).bind fun _ => meets_pure trivial
  | slice =>
    refine (blames_argument (Nat.lt_of_succ_lt hargs)).bind fun v => ?_
    split
    · refine (blames_numberAt hargs).bind fun x => meets_stopAt.andThen fun stop hstop => ?_
      have hmax := Nat.max_le.mpr ⟨Number.clamp_le x _ true, hstop⟩
      exact (blames_part (Nat.le_max_left _ _) hmax).bind fun _ => meets_pure trivial
    · refine (blames_numberAt hargs).bind fun x => meets_stopAt.andThen fun stop hstop => ?_
      have hmax := Nat.max_le.mpr ⟨Number.clamp_le x _ true, hstop⟩
      exact (blames_textPart (Nat.le_max_left _ _) hmax).bind fun _ => meets_pure trivial
    · trivial
  | map => exact regularEffect_callback hargs fun _ _ => Reply.blames_map ..
  | filter => exact regularEffect_callback hargs fun _ _ => Reply.blames_filter ..
  | forEach => exact regularEffect_callback hargs fun _ _ => Reply.blames_visit ..
  | find => exact regularEffect_callback hargs fun _ _ => Reply.blames_find ..
  | reduce =>
    have hargs : 3 ≤ args.length := hargs
    exact (blames_arrayAt (by omega)).bind fun _ => (blames_callableAt (by omega)).bind fun _ =>
      (blames_argument hargs).bind fun _ => meets_pure (Reply.blames_fold ..)
  | sort =>
    refine (blames_arrayAt hargs).bind fun r => ?_
    dsimp only
    split
    · rename_i hcompare
      exact (blames_callableAt hcompare).bind fun _ => meets_pure (Reply.blames_sort ..)
    · exact blames_run_query.bind fun _ => meets_pure trivial
  | reverse => exact (blames_arrayAt hargs).bind fun _ => meets_pure trivial
  | put =>
    have hargs : 3 ≤ args.length := hargs
    exact (blames_instanceAt (by omega)).bind fun _ => (blames_textAt (by omega)).bind fun _ =>
      (blames_argument hargs).bind fun _ => meets_pure trivial
  | call =>
    refine (blames_instanceAt (Nat.lt_of_succ_lt hargs)).bind fun r =>
      (blames_textAt hargs).bind fun name => (blames_argumentsFrom hargs).bind fun more => ?_
    split <;> trivial
  | print =>
    refine (blames_argument hargs).bind fun v => meets_pure ?_
    dsimp only
    split <;> trivial
  | help =>
    have hlines (name : Text) : Blames Cause.IsRegular (Help.lines name) := by
      unfold Help.lines
      split
      · trivial
      · split <;> trivial
    simp only [effect]
    split
    · rename_i hname
      exact (blames_textAt hname).bind fun _ => (hlines _).bind fun _ => meets_pure trivial
    · exact Blames.bind trivial fun _ => (hlines _).bind fun _ => meets_pure trivial
  | _ => cases hpure

/-- Whatever a builtin is called with, it blames only what a running program can have. -/
theorem blames_run (b : Builtin) (s : Store) (args : List Value) :
    (b.run s args).Blames Cause.IsRegular := by
  have harity : Blames Cause.IsRegular (checkArity b args.length) := by
    unfold checkArity
    split
    · trivial
    · split
      · split <;> trivial
      · trivial
  unfold run
  split
  · rename_i cause hcause
    rwa [hcause] at harity
  · rename_i hcount
    have hargs := (length_of_checkArity hcount).1
    split
    · trivial
    · rename_i cause hresult
      exact blames_pureResult hargs hresult
    · rename_i hpure
      have heffect := regularEffect_effect hargs hpure
      split
      · rename_i act hact
        rwa [hact] at heffect
      · rename_i cause hcause
        rwa [hcause] at heffect

end Builtin

/-- A waiting builtin that goes on blames only what a running program can have. -/
theorem Pending.blames_resume (s : Store) (v : Value) (pending : Pending) :
    (pending.resume s v).Blames Cause.IsRegular := by
  cases pending with
  | mapping => exact Reply.blames_map ..
  | filtering => exact Reply.blames_filter ..
  | visiting => exact Reply.blames_visit ..
  | finding =>
    rw [resume]
    split
    · trivial
    · exact Reply.blames_find ..
  | folding => exact Reply.blames_fold ..
  | sorting =>
    have hnumber := @Builtin.blames_toNumber "sort comparator" v
    rw [resume]
    split
    · rename_i cause hcause
      rwa [hcause] at hnumber
    · exact Reply.blames_sort ..

end TinyScript
