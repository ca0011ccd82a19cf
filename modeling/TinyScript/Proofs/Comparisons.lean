import TinyScript.Proofs.NaturalSort
import TinyScript.Proofs.SequenceBuiltins

/-!
# Comparing values

Two numbers or two texts are in at most one of three relations: one is below the other, they are the
same, or one is above the other. NaN is in none of them with any number. Being at most or at least
as large as something is tested by what is not the case, so for NaN both tests hold, although it is
neither the same as anything nor below or above it.
-/

namespace TinyScript

open Float.Model

/-- A double is below another one exactly if comparing what they unpack to says so. -/
theorem lt_iff_compare (x y : Float) :
    x < y ↔ x.toModel.unpack.compare y.toModel.unpack = some .lt :=
  decide_eq_true_iff.trans beq_iff_eq

/-- Compared the other way around, unpacked doubles are in the opposite relation. -/
theorem compareUnpacked_swap (u v : UnpackedFloat) :
    v.compare u = (u.compare v).map Ordering.swap := by
  cases u with
  | notANumber => cases v <;> rfl
  | zero a =>
    cases v with
    | notANumber | zero => rfl
    | infinity b | finite b => cases b <;> rfl
  | infinity a =>
    cases v with
    | notANumber => cases a <;> rfl
    | zero b | finite b => cases a <;> rfl
    | infinity b => cases a <;> cases b <;> rfl
  | finite a m e hm =>
    cases v with
    | notANumber | zero b => cases a <;> rfl
    | infinity b => cases a <;> cases b <;> rfl
    | finite b n f hn =>
      have hparts : (compare f e).then (compare n m) =
          ((compare e f).then (compare m n)).swap := by
        rw [Ordering.swap_then, Int.compare_swap, Nat.compare_swap]
      cases a <;> cases b
      · exact congrArg (fun c => some c.swap) hparts
      · rfl
      · rfl
      · exact congrArg some hparts

/-- Only NaN is in no relation: without it, kinds and signs decide which of the three relations it
is. -/
theorem compareUnpacked_eq_none_iff (u v : UnpackedFloat) :
    u.compare v = none ↔ u.isNaN = true ∨ v.isNaN = true := by
  have hsome : ∀ c : Ordering, some c = none ↔ false = true ∨ false = true := by simp
  cases u with
  | notANumber => exact ⟨fun _ => .inl rfl, fun _ => rfl⟩
  | zero a =>
    cases v with
    | notANumber => exact ⟨fun _ => .inr rfl, fun _ => rfl⟩
    | zero b => exact hsome _
    | infinity b | finite b => cases b <;> exact hsome _
  | infinity a | finite a =>
    cases v with
    | notANumber => cases a <;> exact ⟨fun _ => .inr rfl, fun _ => rfl⟩
    | zero b => cases a <;> exact hsome _
    | infinity b | finite b => cases a <;> cases b <;> exact hsome _

namespace Value

/-- Two numbers or two texts. -/
inductive Comparable : Value → Value → Prop where
  | numbers (x y : Float) : Comparable (.number x) (.number y)
  | strings (t u : Text) : Comparable (.string t) (.string u)

/-- Whether a value is the number NaN. -/
def isNaN : Value → Bool
  | .number x => x.isNaN
  | _ => false

/-- The relation of one value to another: numbers by their size, texts bytewise. NaN has none. -/
def relation? : Value → Value → Option Ordering
  | .number x, .number y => x.toModel.unpack.compare y.toModel.unpack
  | .string t, .string u => some (t.order u)
  | _, _ => none

variable {v w : Value}

/-- Values are comparable in both directions. -/
theorem Comparable.symm (h : v.Comparable w) : w.Comparable v := by
  cases h with
  | numbers x y => exact .numbers y x
  | strings t u => exact .strings u t

/-- The relation of the second value to the first is the opposite one. -/
theorem Comparable.relation?_swap (h : v.Comparable w) :
    w.relation? v = (v.relation? w).map Ordering.swap := by
  cases h with
  | numbers x y => exact compareUnpacked_swap _ _
  | strings t u => exact congrArg some Std.OrientedCmp.eq_swap

/-- Comparable values are in no relation exactly if one of them is NaN. -/
theorem Comparable.relation?_eq_none_iff (h : v.Comparable w) :
    v.relation? w = none ↔ v.isNaN = true ∨ w.isNaN = true := by
  cases h with
  | numbers x y => exact compareUnpacked_eq_none_iff _ _
  | strings t u => simp [relation?, isNaN]

/-- One of two comparable values is less exactly if it is below the other one. -/
theorem Comparable.less_eq (h : v.Comparable w) : v.less w = (v.relation? w == some .lt) := by
  cases h with
  | numbers x y =>
    apply Bool.eq_iff_iff.mpr
    rw [beq_iff_eq]
    exact decide_eq_true_iff.trans (lt_iff_compare x y)
  | strings t u => rfl

/-- Comparable values are the same exactly if they are in the relation of equality. -/
theorem Comparable.same_eq (h : v.Comparable w) : v.same w = (v.relation? w == some .eq) := by
  cases h with
  | numbers x y => rfl
  | strings t u =>
    apply Bool.eq_iff_iff.mpr
    simp [same, relation?]

end Value

namespace Builtin

/-- A call of a builtin comes to an outcome, within any limits, and to no other one. -/
def ComesTo (b : Builtin) (args : List Value) (s : Store) (o : Outcome) : Prop :=
  ∀ limits home o', Returns limits (.builtin b home) args s o' ↔ o' = o

/-- A call of a builtin comes to a fault and changes nothing. -/
def Fails (b : Builtin) (args : List Value) (s : Store) (cause : Cause) : Prop :=
  b.ComesTo args s ⟨.error (.unplaced cause), s⟩

variable {b : Builtin} {args : List Value} {s : Store} {cause : Cause} {p : Value × Store}

/-- A builtin that gives back its result at once and changes nothing. -/
theorem comesTo_of_pure {r : Except Cause Value} (harity : checkArity b args.length = .ok ())
    (h : b.pureResult? s args = some r) : b.ComesTo args s ⟨r.mapError .unplaced, s⟩ := by
  intro limits home o
  rw [returns_builtin_iff, run, harity, h]
  cases r with
  | ok v => simp only [Reply.makes_value_iff, exists_eq_left, Except.mapError]
  | error cause => simp only [Reply.makes_failure_iff, exists_eq_left, Except.mapError]

/-- A call of a builtin comes to one outcome. -/
theorem ComesTo.unique {o o' : Outcome} (h : b.ComesTo args s o) (h' : b.ComesTo args s o') :
    o = o' := (h' ⟨none, none⟩ 0 o).mp ((h ⟨none, none⟩ 0 o).mpr rfl)

/-- A call that gives a value does not fail. -/
theorem Gives.not_fails (h : b.Gives args s p) : ¬ b.Fails args s cause := by
  intro hfails
  cases congrArg Outcome.result (ComesTo.unique h hfails)

/-- A call has one answer. -/
theorem Gives.answer_iff {answer answer' : Bool} (h : b.Gives args s (.boolean answer, s)) :
    b.Gives args s (.boolean answer', s) ↔ answer' = answer := by
  constructor
  · intro h'
    exact Value.boolean.inj (congrArg Prod.fst (h'.unique h))
  · rintro rfl
    exact h

/-- The test for difference gives the opposite of the test for equality. -/
theorem gives_notEqual (s : Store) (v w : Value) :
    notEqual.Gives [v, w] s (.boolean (!v.same w), s) :=
  gives_of_run rfl

/-- A builtin that compares two arguments and tests whether the first one comes before the second
one, and whether the second one comes before the first one. -/
structure Compares (b : Builtin) (test : Bool → Bool → Bool) : Prop where
  arity : checkArity b 2 = .ok ()
  result : ∀ s args, b.pureResult? s args = some (compare b test args)

/-- `<` tests whether the first argument comes before the second one. -/
theorem compares_less : less.Compares fun below _ => below := ⟨rfl, fun _ _ => rfl⟩

/-- `>` tests whether the second argument comes before the first one. -/
theorem compares_greater : greater.Compares fun _ above => above := ⟨rfl, fun _ _ => rfl⟩

/-- `<=` tests that the second argument does not come before the first one. -/
theorem compares_lessEqual : lessEqual.Compares fun _ above => !above := ⟨rfl, fun _ _ => rfl⟩

/-- `>=` tests that the first argument does not come before the second one. -/
theorem compares_greaterEqual : greaterEqual.Compares fun below _ => !below :=
  ⟨rfl, fun _ _ => rfl⟩

variable {test : Bool → Bool → Bool} {v w : Value}

/-- Comparable arguments are compared, and the store stays as it is. -/
theorem Compares.gives (hb : b.Compares test) (s : Store) (h : v.Comparable w) :
    b.Gives [v, w] s (.boolean (test (v.less w) (w.less v)), s) := by
  refine gives_of_pure hb.arity ?_
  rw [hb.result]
  cases h with
  | numbers | strings => rfl

/-- What is neither two numbers nor two texts cannot be compared. -/
theorem Compares.fails (hb : b.Compares test) (s : Store) (h : ¬ v.Comparable w) :
    b.Fails [v, w] s (.incomparable b.label v.type w.type) := by
  have hbefore : comesBefore b.label v w = .error (.incomparable b.label v.type w.type) := by
    cases v with
    | number x =>
      cases w with
      | number y => exact absurd (.numbers x y) h
      | _ => rfl
    | string t =>
      cases w with
      | string u => exact absurd (.strings t u) h
      | _ => rfl
    | _ => rfl
  refine comesTo_of_pure hb.arity (r := .error _) ?_
  rw [hb.result]
  change some ((comesBefore b.label v w).bind _) = _
  rw [hbefore]
  rfl

/-- A comparison fails with a type error exactly if its arguments are not comparable. -/
theorem Compares.fails_iff (hb : b.Compares test) (s : Store) (v w : Value) :
    (∃ cause, cause.kind = .typeError ∧ b.Fails [v, w] s cause) ↔ ¬ v.Comparable w := by
  constructor
  · rintro ⟨cause, -, hfails⟩ h
    exact (hb.gives s h).not_fails hfails
  · intro h
    exact ⟨_, rfl, hb.fails s h⟩

end Builtin

open Builtin in
/-- The comparisons of two values fit together. Those of sizes fail with a type error on the same
pairs of values, all but two numbers and two texts. On these pairs

- at most one of `<`, `==` and `>` holds, `>` is `<` the other way around, and `!=` is what `==` is
  not;
- `<=` holds exactly where `<` or `==` does, and `>=` exactly where `>` or `==` does, if neither
  value is NaN. If one is NaN, none of `<`, `==` and `>` holds, and yet `<=` and `>=` do. -/
theorem comparisons_cohere (s : Store) (v w : Value) :
    (∀ b ∈ [less, lessEqual, greater, greaterEqual],
      (∃ cause, cause.kind = .typeError ∧ b.Fails [v, w] s cause) ↔ ¬ v.Comparable w) ∧
    (v.Comparable w → ∃ below same above : Bool,
      less.Gives [v, w] s (.boolean below, s) ∧ equal.Gives [v, w] s (.boolean same, s) ∧
      greater.Gives [v, w] s (.boolean above, s) ∧ less.Gives [w, v] s (.boolean above, s) ∧
      notEqual.Gives [v, w] s (.boolean (!same), s) ∧ [below, same, above].count true ≤ 1 ∧
      (lessEqual.Gives [v, w] s (.boolean (below || same), s) ↔
        v.isNaN = false ∧ w.isNaN = false) ∧
      (greaterEqual.Gives [v, w] s (.boolean (above || same), s) ↔
        v.isNaN = false ∧ w.isNaN = false) ∧
      (v.isNaN = true ∨ w.isNaN = true →
        below = false ∧ same = false ∧ above = false ∧
        lessEqual.Gives [v, w] s (.boolean true, s) ∧
        greaterEqual.Gives [v, w] s (.boolean true, s))) := by
  constructor
  · intro b hb
    simp only [List.mem_cons, List.not_mem_nil, or_false] at hb
    rcases hb with rfl | rfl | rfl | rfl
    · exact compares_less.fails_iff s v w
    · exact compares_lessEqual.fails_iff s v w
    · exact compares_greater.fails_iff s v w
    · exact compares_greaterEqual.fails_iff s v w
  · intro h
    refine ⟨v.less w, v.same w, w.less v, compares_less.gives s h, gives_equal s v w,
      compares_greater.gives s h, compares_less.gives s h.symm, gives_notEqual s v w, ?_⟩
    rw [(compares_lessEqual.gives s h).answer_iff, (compares_lessEqual.gives s h).answer_iff,
      (compares_greaterEqual.gives s h).answer_iff, (compares_greaterEqual.gives s h).answer_iff,
      ← Bool.not_eq_true, ← Bool.not_eq_true, ← not_or, ← h.relation?_eq_none_iff,
      h.less_eq, h.same_eq, h.symm.less_eq, h.relation?_swap]
    cases v.relation? w with
    | none => decide
    | some c => cases c <;> decide

/-- Zero divided by zero is at most one, though it is neither below one nor the same as one. -/
theorem lessEqual_nan_one :
    ["<=(/(0, 0), 1)", "<(/(0, 0), 1)", "==(/(0, 0), 1)"].map (fun src =>
      (execute ⟨none, none⟩ 100 src 1 (Store.initial (.fresh none) false).2).map Outcome.result) =
    [some (.ok (.boolean true)), some (.ok (.boolean false)), some (.ok (.boolean false))] := by
  decide +kernel

end TinyScript
