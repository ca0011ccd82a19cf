import Mathlib.Data.Prod.Lex
import TinyScript.Proofs.CallsBack
import TinyScript.Proofs.StableOrder

/-!
# Sorting without a comparator

Numbers are sorted by their size and texts bytewise. Nothing else can be compared, so a sort of two
elements or more fails unless all of them are numbers or all are texts: sorting compares enough
elements to find out. Numbers other than NaN, and texts, are strictly and weakly ordered, so what
comes of such a sort is the stable sorting.
-/

namespace TinyScript

open Query Sorting

section Numbers

open Float.Model

/-- Where an unpacked number stands among the others that are not NaN: the infinities outside, the
zeros in the middle, and between them numbers by exponent and mantissa. -/
def rank : UnpackedFloat → ℤ ×ₗ ℤ ×ₗ ℤ
  | .infinity .negative => toLex (-2, toLex (0, 0))
  | .finite .negative m e _ => toLex (-1, toLex (-e, -(m : ℤ)))
  | .zero _ | .notANumber => toLex (0, toLex (0, 0))
  | .finite .positive m e _ => toLex (1, toLex (e, (m : ℤ)))
  | .infinity .positive => toLex (2, toLex (0, 0))

/-- One number is below another exactly if its rank is. Kinds and signs decide how numbers are
compared, and what is left is about integers. -/
theorem unpacked_lt_iff_rank {u v : UnpackedFloat} (hu : u.isNaN = false) (hv : v.isNaN = false) :
    u.lt v = true ↔ rank u < rank v := by
  rw [UnpackedFloat.lt, beq_iff_eq]
  cases u with
  | notANumber => cases hu
  | zero a =>
    cases v with
    | notANumber => cases hv
    | zero b =>
      change some Ordering.eq = some Ordering.lt ↔ rank (.zero b) < rank (.zero b)
      simp
    | infinity b | finite b =>
      cases b <;> change some _ = some Ordering.lt ↔ toLex (_, _) < toLex (_, _) <;>
        simp [Prod.Lex.toLex_lt_toLex]
  | infinity a =>
    cases v with
    | notANumber => cases hv
    | zero b | finite b =>
      cases a <;> cases b <;> change some _ = some Ordering.lt ↔ toLex (_, _) < toLex (_, _) <;>
        simp [Prod.Lex.toLex_lt_toLex]
    | infinity b => cases a <;> cases b <;> decide
  | finite a m e hm =>
    cases v with
    | notANumber => cases hv
    | zero b | infinity b =>
      cases a <;> cases b <;> change some _ = some Ordering.lt ↔ toLex (_, _) < toLex (_, _) <;>
        simp [Prod.Lex.toLex_lt_toLex]
    | finite b n f hn =>
      cases a <;> cases b <;>
        change some _ = some Ordering.lt ↔ toLex (_, toLex (_, _)) < toLex (_, toLex (_, _)) <;>
        simp [Prod.Lex.toLex_lt_toLex, Ordering.then_eq_lt, Ordering.then_eq_gt,
          Int.compare_eq_lt, Int.compare_eq_gt, Nat.compare_eq_lt, Nat.compare_eq_gt]

/-- Of numbers that are not NaN, one is below another exactly if its rank is. -/
theorem lt_iff_rank {x y : Float} (hx : x.isNaN = false) (hy : y.isNaN = false) :
    x < y ↔ rank x.toModel.unpack < rank y.toModel.unpack :=
  decide_eq_true_iff.trans (unpacked_lt_iff_rank hx hy)

end Numbers

/-- Texts are compared bytewise. -/
theorem Text.less_iff (t u : Text) :
    t.less u = true ↔ List.Lex (fun a b => a.toNat < b.toNat) t.bytes u.bytes := by
  rw [Text.less, Text.order_eq, beq_iff_eq]
  generalize t.bytes = as
  generalize u.bytes = bs
  induction as generalizing bs with
  | nil =>
    cases bs with
    | nil => simp [List.compareLex_nil_nil]
    | cons b bs => simp [List.compareLex_nil_cons]
  | cons a as ih =>
    cases bs with
    | nil => simp [List.compareLex_cons_nil]
    | cons b bs =>
      rw [List.compareLex_cons_cons, Ordering.then_eq_lt, ih, List.cons_lex_cons_iff,
        Std.LawfulEqCmp.compare_eq_iff_eq, Std.compare_eq_lt, UInt8.lt_iff_toNat_lt]

namespace Value

/-- One value comes before another: numbers by their size, texts bytewise, nothing else. -/
def Precedes : Value → Value → Prop
  | .number x, .number y => x < y
  | .string t, .string u => List.Lex (fun a b => a.toNat < b.toNat) t.bytes u.bytes
  | _, _ => False

/-- Whether one value comes before another. -/
def less : Value → Value → Bool
  | .number x, .number y => x < y
  | .string t, .string u => t.less u
  | _, _ => false

/-- The test for coming before tells exactly that. -/
theorem less_eq_true_iff (v w : Value) : v.less w = true ↔ v.Precedes w := by
  cases v with
  | number x =>
    cases w with
    | number y => exact decide_eq_true_iff
    | _ => simp [less, Precedes]
  | string t =>
    cases w with
    | string u => exact Text.less_iff t u
    | _ => simp [less, Precedes]
  | _ => simp [less, Precedes]

end Value

/-- Two values are compared, or they are not both numbers and not both texts. -/
theorem Builtin.comesBefore_cases (operation : Text) (v w : Value) :
    comesBefore operation v w = .ok (v.less w) ∧ v.type = w.type ∧
        (v.type = .number ∨ v.type = .string) ∨
      comesBefore operation v w = .error (.incomparable operation v.type w.type) ∧
        ¬ (v.type = .number ∧ w.type = .number) ∧ ¬ (v.type = .string ∧ w.type = .string) := by
  cases v with
  | number x =>
    cases w with
    | number y => exact .inl ⟨rfl, rfl, .inl rfl⟩
    | _ => exact .inr ⟨rfl, by simp [Value.type], by simp [Value.type]⟩
  | string t =>
    cases w with
    | string u => exact .inl ⟨rfl, rfl, .inr rfl⟩
    | _ => exact .inr ⟨rfl, by simp [Value.type], by simp [Value.type]⟩
  | _ => exact .inr ⟨rfl, by simp [Value.type], by simp [Value.type]⟩

/-- Coming before by a rank is a strict weak order. -/
theorem strictWeakOrder_of_rank {α κ : Type} [LinearOrder κ] {before : α → α → Prop} {xs : List α}
    (rank : α → κ) (h : ∀ x ∈ xs, ∀ y ∈ xs, before x y ↔ rank x < rank y) :
    StrictWeakOrder before xs where
  irrefl x hx := by
    rw [h x hx x hx]
    exact lt_irrefl _
  trans x hx y hy z hz := by
    rw [h x hx y hy, h y hy z hz, h x hx z hz]
    exact lt_trans
  alike_trans x hx y hy z hz := by
    rw [h x hx y hy, h y hy x hx, h y hy z hz, h z hz y hy, h x hx z hz, h z hz x hx]
    simp only [not_lt]
    exact fun hxy hyz => ⟨hyz.1.trans hxy.1, hxy.2.trans hyz.2⟩

/-- Only equal texts are alike. -/
theorem Text.eq_of_not_less {t u : Text} (h : ¬ t.less u = true) (h' : ¬ u.less t = true) :
    t = u := by
  simp only [Text.less, beq_iff_eq] at h h'
  rw [← Text.order_eq_eq_iff]
  cases horder : t.order u with
  | lt => exact absurd horder h
  | eq => rfl
  | gt => exact absurd (Std.OrientedCmp.gt_iff_lt.mp horder) h'

/-- What has the type of numbers is a number. -/
theorem eq_number_of_type {v : Value} (h : v.type = .number) : ∃ x, v = .number x := by
  cases v with
  | number x => exact ⟨x, rfl⟩
  | _ => cases h

/-- What has the type of strings is a text. -/
theorem eq_string_of_type {v : Value} (h : v.type = .string) : ∃ t, v = .string t := by
  cases v with
  | string t => exact ⟨t, rfl⟩
  | _ => cases h

/-- Where a number stands among the others. -/
def Value.place : Value → ℤ ×ₗ ℤ ×ₗ ℤ
  | .number x => rank x.toModel.unpack
  | _ => rank .notANumber

section Kinds

variable {xs : List Value}

/-- Numbers other than NaN are strictly and weakly ordered. -/
theorem strictWeakOrder_numbers (hxs : ∀ v ∈ xs, v.type = .number)
    (hnan : ∀ x, .number x ∈ xs → x.isNaN = false) : StrictWeakOrder Value.Precedes xs := by
  refine strictWeakOrder_of_rank Value.place fun v hv w hw => ?_
  obtain ⟨x, rfl⟩ := eq_number_of_type (hxs v hv)
  obtain ⟨y, rfl⟩ := eq_number_of_type (hxs w hw)
  exact lt_iff_rank (hnan x hv) (hnan y hw)

/-- Texts are strictly and weakly ordered. -/
theorem strictWeakOrder_strings (hxs : ∀ v ∈ xs, v.type = .string) :
    StrictWeakOrder Value.Precedes xs where
  irrefl v hv := by
    obtain ⟨t, rfl⟩ := eq_string_of_type (hxs v hv)
    rw [← Value.less_eq_true_iff]
    simp [Value.less, Text.less, Std.ReflCmp.compare_self]
  trans v hv w hw z hz := by
    obtain ⟨t, rfl⟩ := eq_string_of_type (hxs v hv)
    obtain ⟨u, rfl⟩ := eq_string_of_type (hxs w hw)
    obtain ⟨x, rfl⟩ := eq_string_of_type (hxs z hz)
    simp only [← Value.less_eq_true_iff, Value.less, Text.less, beq_iff_eq]
    exact Std.TransCmp.lt_trans
  alike_trans v hv w hw z hz := by
    obtain ⟨t, rfl⟩ := eq_string_of_type (hxs v hv)
    obtain ⟨u, rfl⟩ := eq_string_of_type (hxs w hw)
    simp only [← Value.less_eq_true_iff]
    intro halike
    obtain rfl := Text.eq_of_not_less halike.1 halike.2
    exact id

end Kinds

/-- A computation fails only with what a question fails with. -/
theorem Query.exists_of_run_eq_error {α β ε : Type} {less : α → α → Except ε Bool} {e : ε}
    {P : α → Prop} {Q : β → Prop} {q : Query α β} (hq : q.All P Q) (h : q.run less = .error e) :
    ∃ x y, P x ∧ P y ∧ less x y = .error e := by
  induction q with
  | done b => cases h
  | ask x y next ih =>
    rw [run] at h
    cases hless : less x y with
    | error e' =>
      rw [hless] at h
      obtain rfl := Except.error.inj h
      exact ⟨x, y, hq.1, hq.2.1, hless⟩
    | ok answer =>
      rw [hless] at h
      exact ih answer (hq.2.2 answer) h

/-- Two elements or more that are neither all numbers nor all texts. -/
def Mixed (xs : List Value) : Prop :=
  2 ≤ xs.length ∧ (¬ ∀ v ∈ xs, v.type = .number) ∧ ¬ ∀ v ∈ xs, v.type = .string

section Outcomes

variable {xs ys : List Value} {operation : Text}

/-- A sort that fails has come upon elements that cannot be compared. -/
theorem mixed_of_run_error {cause : Cause}
    (h : (sort xs).run (Builtin.comesBefore operation) = .error cause) :
    cause.kind = .typeError ∧ Mixed xs := by
  obtain ⟨v, w, hv, hw, hcause⟩ := exists_of_run_eq_error (all_sort xs fun _ hx => hx) h
  rcases Builtin.comesBefore_cases operation v w with ⟨hok, -⟩ | ⟨herror, hnumbers, hstrings⟩
  · cases hok.symm.trans hcause
  · obtain rfl := Except.error.inj (herror.symm.trans hcause)
    refine ⟨rfl, ?_, fun hall => hnumbers ⟨hall v hv, hall w hw⟩,
      fun hall => hstrings ⟨hall v hv, hall w hw⟩⟩
    by_contra hlength
    rw [sort_of_length_le_one (by omega)] at h
    cases h

/-- The answers that a sort without a comparator gets. -/
theorem eq_of_comesBefore {v w : Value} {answer : Bool}
    (h : Builtin.comesBefore operation v w = .ok answer) :
    answer = v.less w ∧ v.type = w.type ∧ (v.type = .number ∨ v.type = .string) := by
  rcases Builtin.comesBefore_cases operation v w with ⟨hok, htypes⟩ | ⟨herror, -⟩
  · exact ⟨Except.ok.inj (h.symm.trans hok), htypes⟩
  · cases h.symm.trans herror

/-- A sort of two elements or more that does not fail has found them all of one kind. The first
question shows which. -/
theorem oneKind_of_run_ok (h : (sort xs).run (Builtin.comesBefore operation) = .ok ys)
    (hlength : 2 ≤ xs.length) :
    (∀ v ∈ xs, v.type = .number) ∨ ∀ v ∈ xs, v.type = .string := by
  have hperm : xs.Perm ys := (all_sort (P := fun _ => True) xs (by simp)).of_run h
  have hkind : OfOneKind Value.type xs := by
    refine OfOneKind.perm (Ensures.of_run (ensures_sort_kind ?_ xs) h) hperm.symm
    exact fun v w answer hanswer => (eq_of_comesBefore hanswer).2.1
  match xs, hlength with
  | v :: w :: rest, _ =>
    obtain ⟨next, hsort⟩ := sort_eq_ask v w rest
    have hw : w ∈ v :: w :: rest := by simp
    rw [hsort, Query.run] at h
    cases hanswer : Builtin.comesBefore operation w v with
    | error cause =>
      rw [hanswer] at h
      cases h
    | ok answer =>
      rcases (eq_of_comesBefore hanswer).2.2 with htype | htype
      · exact .inl fun u hu => (hkind u hu w hw).trans htype
      · exact .inr fun u hu => (hkind u hu w hw).trans htype

/-- At most one element is sorted as it is. -/
theorem stableSorting_of_length_le_one {α : Type} {before : α → α → Prop} {xs : List α}
    (h : xs.length ≤ 1) : StableSorting before xs xs := by
  refine ⟨xs.zipIdx, .refl _, List.zipIdx_map_fst 0 xs, ?_⟩
  match xs, h with
  | [], _ => exact .nil
  | [x], _ => exact List.pairwise_singleton _ _

/-- A sort that does not fail gives the stable sorting if no element is NaN. -/
theorem stableSorting_of_run_ok (h : (sort xs).run (Builtin.comesBefore operation) = .ok ys)
    (hnan : ∀ x, .number x ∈ xs → x.isNaN = false) : StableSorting Value.Precedes xs ys := by
  rcases Nat.lt_or_ge xs.length 2 with hlength | hlength
  · rw [sort_of_length_le_one (by omega)] at h
    obtain rfl := Except.ok.inj h
    exact stableSorting_of_length_le_one (by omega)
  · have horder : StrictWeakOrder Value.Precedes xs := by
      rcases oneKind_of_run_ok h hlength with hnumbers | hstrings
      · exact strictWeakOrder_numbers hnumbers hnan
      · exact strictWeakOrder_strings hstrings
    have hless : (fun v w => Value.less v w = true) = Value.Precedes :=
      funext fun v => funext fun w => propext (Value.less_eq_true_iff v w)
    rw [← hless] at horder ⊢
    exact ((ensures_sort_stable horder).of_allowed
      fun v w answer hanswer => (eq_of_comesBefore hanswer).1).of_run h

end Outcomes

section Replies

variable {s : Store} {r : ArrayRef}

/-- A sort without comparator answers its questions by the natural order, and gives a new array. -/
theorem effect_sort_alone : Builtin.sort.effect s [.array r] =
    ((sort (s.items r).toList).run (Builtin.comesBefore Builtin.sort.label) >>= fun items =>
      pure fun s => Reply.array s items) := rfl

/-- A sort that is handed an array alone gives a new array. -/
theorem run_sort_of_ok {ys : List Value}
    (h : (sort (s.items r).toList).run (Builtin.comesBefore Builtin.sort.label) = .ok ys) :
    Builtin.sort.run s [.array r] = .value (s.newArray ys.toArray).1 (s.newArray ys.toArray).2 := by
  have heffect := effect_sort_alone (s := s) (r := r)
  rw [h] at heffect
  rw [Builtin.run]
  simp only [heffect]
  rfl

/-- A sort that is handed an array alone fails as the comparisons do. -/
theorem run_sort_of_error {cause : Cause}
    (h : (sort (s.items r).toList).run (Builtin.comesBefore Builtin.sort.label) = .error cause) :
    Builtin.sort.run s [.array r] = .failure cause s := by
  have heffect := effect_sort_alone (s := s) (r := r)
  rw [h] at heffect
  rw [Builtin.run]
  simp only [heffect]
  rfl

end Replies

/-- A sort without a comparator fails with a type error if there are two elements or more and they
are neither all numbers nor all texts. Otherwise it gives a new array of the elements, which is the
stable sorting if no element is NaN. The array that is sorted stays as it is. -/
theorem sort_without_comparator (limits : Limits) (home : ScopeRef) (s : Store) (r : ArrayRef) :
    let xs := (s.items r).toList
    ∃ o, (∀ o', Returns limits (.builtin .sort home) [.array r] s o' ↔ o' = o) ∧
      o.store.items r = s.items r ∧
      ((∃ fault, o.result = .error fault ∧ fault.cause.kind = .typeError) ↔ Mixed xs) ∧
      (¬ Mixed xs → ∃ ys : List Value, o = .given (s.newArray ys.toArray) ∧ ys.Perm xs ∧
        ((∀ x, .number x ∈ xs → x.isNaN = false) → StableSorting Value.Precedes xs ys)) := by
  intro xs
  cases hrun : (sort xs).run (Builtin.comesBefore Builtin.sort.label) with
  | error cause =>
    obtain ⟨hkind, hmixed⟩ := mixed_of_run_error hrun
    refine ⟨⟨.error (.unplaced cause), s⟩, fun o' => ?_, rfl,
      ⟨fun _ => hmixed, fun _ => ⟨_, rfl, hkind⟩⟩, fun h => absurd hmixed h⟩
    rw [returns_builtin_iff, run_sort_of_error hrun]
    simp only [Reply.makes_failure_iff, exists_eq_left]
  | ok ys =>
    have hperm : xs.Perm ys := (all_sort (P := fun _ => True) xs (by simp)).of_run hrun
    have hunmixed : ¬ Mixed xs := by
      rintro ⟨hlength, hnumbers, hstrings⟩
      exact (oneKind_of_run_ok hrun hlength).elim hnumbers hstrings
    refine ⟨.given (s.newArray ys.toArray), fun o' => ?_, ?_, ⟨?_, fun h => absurd h hunmixed⟩,
      fun _ => ⟨ys, rfl, hperm.symm, stableSorting_of_run_ok hrun⟩⟩
    · rw [returns_builtin_iff, run_sort_of_ok hrun]
      simp only [Reply.makes_value_iff, exists_eq_left, Outcome.given]
    · have hnone : Consecutive limits s [] s := .nil s
      exact hnone.items_newArray_of_perm hperm
    · rintro ⟨fault, hresult, -⟩
      cases hresult

end TinyScript
