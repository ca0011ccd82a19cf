import TinyScript.Proofs.Clamping
import TinyScript.Proofs.Comparisons

/-!
# The least and the greatest number

Numbers other than NaN are linearly ordered if the negative zero comes before the other one. The
least number of a list is found by keeping the lesser of two numbers from left to right, so it does
not depend on the order of the list. The search ends where it meets NaN or something that is no
number, whichever comes first; only if a list has both does the order matter.
-/

namespace TinyScript

open Float.Model

/-- A double that is not NaN is not unpacked as NaN. -/
theorem not_isNaN_unpack {x : Float} (hx : x.isNaN = false) : x.toModel.unpack.isNaN = false := hx

/-- Numbers of one rank are the same, or they are zeros. The first component of the rank tells the
kind and the sign. -/
theorem eq_or_zeros_of_rank_eq {u v : UnpackedFloat} (hu : u.isNaN = false) (hv : v.isNaN = false)
    (h : rank u = rank v) : u = v ∨ (∃ a, u = .zero a) ∧ ∃ b, v = .zero b := by
  cases u with
  | notANumber => cases hu
  | zero a =>
    cases v with
    | notANumber => cases hv
    | zero b => exact .inr ⟨⟨a, rfl⟩, ⟨b, rfl⟩⟩
    | infinity b | finite b =>
      cases b <;> exact absurd (Prod.mk.inj (toLex_inj.mp h)).1 (by decide)
  | infinity a =>
    cases v with
    | notANumber => cases hv
    | infinity b =>
      cases a <;> cases b <;>
        first | exact .inl rfl | exact absurd (Prod.mk.inj (toLex_inj.mp h)).1 (by decide)
    | zero b | finite b =>
      cases a <;> cases b <;> exact absurd (Prod.mk.inj (toLex_inj.mp h)).1 (by decide)
  | finite a m e hm =>
    cases v with
    | notANumber => cases hv
    | zero b | infinity b =>
      cases a <;> cases b <;> exact absurd (Prod.mk.inj (toLex_inj.mp h)).1 (by decide)
    | finite b n f hn =>
      cases a <;> cases b
      case negative.negative =>
        obtain ⟨-, hparts⟩ := Prod.mk.inj (toLex_inj.mp h)
        obtain ⟨hexponent, hmantissa⟩ := Prod.mk.inj (toLex_inj.mp hparts)
        obtain rfl := neg_inj.mp hexponent
        obtain rfl := Int.ofNat.inj (neg_inj.mp hmantissa)
        exact .inl rfl
      case positive.positive =>
        obtain ⟨-, hparts⟩ := Prod.mk.inj (toLex_inj.mp h)
        obtain ⟨hexponent, hmantissa⟩ := Prod.mk.inj (toLex_inj.mp hparts)
        obtain rfl := hexponent
        obtain rfl := Int.ofNat.inj hmantissa
        exact .inl rfl
      all_goals exact absurd (Prod.mk.inj (toLex_inj.mp h)).1 (by decide)

/-- Between zeros the negative one comes first. -/
def zeroRank : UnpackedFloat → ℤ
  | .zero .negative => -1
  | _ => 0

/-- Where a number other than NaN stands among the others. -/
def standing (x : Float) : (ℤ ×ₗ ℤ ×ₗ ℤ) ×ₗ ℤ :=
  toLex (rank x.toModel.unpack, zeroRank x.toModel.unpack)

section Standing

variable {x y : Float} (hx : x.isNaN = false) (hy : y.isNaN = false)
include hx hy

/-- Two numbers other than NaN do not stand in the same place. -/
theorem eq_of_standing_eq (h : standing x = standing y) : x = y := by
  apply Binary64.eq_of_unpack_eq
  obtain ⟨hrank, hzero⟩ := Prod.mk.inj (toLex_inj.mp h)
  rcases eq_or_zeros_of_rank_eq hx hy hrank with heq | ⟨⟨a, ha⟩, ⟨b, hb⟩⟩
  · exact heq
  · rw [ha, hb] at hzero ⊢
    cases a <;> cases b <;> simp_all [zeroRank]

/-- Of two numbers the lesser one stands first. -/
theorem standing_lt_of_lt (h : x < y) : standing x < standing y :=
  Prod.Lex.toLex_lt_toLex.mpr (.inl ((lt_iff_rank hx hy).mp h))

/-- A number is at most another one exactly if the other one is not below it, as neither is NaN. -/
theorem le_iff_not_lt : x ≤ y ↔ ¬ y < x := by
  have hle : x ≤ y ↔ (x.toModel.unpack.compare y.toModel.unpack).any (·.isLE) = true :=
    decide_eq_true_iff
  have hsome : x.toModel.unpack.compare y.toModel.unpack ≠ none := by
    rw [Ne, compareUnpacked_eq_none_iff, not_isNaN_unpack hx, not_isNaN_unpack hy]
    simp
  rw [hle, lt_iff_compare, compareUnpacked_swap x.toModel.unpack]
  cases hcompare : x.toModel.unpack.compare y.toModel.unpack with
  | none => exact absurd hcompare hsome
  | some c => cases c <;> decide

/-- A number that does not stand behind another one is at most that one. -/
theorem le_of_standing_le (h : standing x ≤ standing y) : x ≤ y := by
  rw [le_iff_not_lt hx hy]
  intro hlt
  exact absurd (standing_lt_of_lt hy hx hlt) (not_lt.mpr h)

end Standing

/-- The doubles that compare equal to zero are the two zeros. -/
theorem beq_zero_iff (x : Float) : (x == 0) = true ↔ ∃ a, x.toModel.unpack = .zero a := by
  have hbeq : (x == 0) = (x.toModel.unpack.compare (.zero .positive) == some .eq) := rfl
  rw [hbeq, beq_iff_eq]
  cases x.toModel.unpack with
  | zero a => exact ⟨fun _ => ⟨a, rfl⟩, fun _ => rfl⟩
  | notANumber => simp [UnpackedFloat.compare]
  | infinity a | finite a =>
    refine ⟨fun h => ?_, fun h => ?_⟩
    · cases a <;> cases h
    · obtain ⟨b, h⟩ := h
      cases h

/-- A zero is negative exactly if its sign is. -/
theorem isNegative_zero {x : Float} {a : UnpackedFloat.Sign} (h : x.toModel.unpack = .zero a) :
    Number.isNegative x = true ↔ a = .negative := by
  have hx : x = .ofModel (Float.Model.pack (.zero a)) := by
    apply Binary64.eq_of_unpack_eq
    rw [h]
    cases a <;> rfl
  rw [hx]
  cases a with
  | negative => exact iff_of_true (by decide) rfl
  | positive => exact iff_of_false (by decide) (by simp)

/-- Of two numbers, one is the lesser and the other one the greater. -/
theorem lesser_greater_cases {x y : Float} (hx : x.isNaN = false) (hy : y.isNaN = false) :
    standing x ≤ standing y ∧ Number.lesser x y = x ∧ Number.greater x y = y ∨
      standing y ≤ standing x ∧ Number.lesser x y = y ∧ Number.greater x y = x := by
  by_cases hzeros : (x == 0 && y == 0) = true
  · obtain ⟨⟨a, ha⟩, ⟨b, hb⟩⟩ :=
      (Bool.and_eq_true_iff.mp hzeros).imp (beq_zero_iff x).mp (beq_zero_iff y).mp
    have hsign := isNegative_zero ha
    rw [Number.lesser, Number.greater, if_pos hzeros, if_pos hzeros]
    cases a with
    | negative =>
      rw [if_pos (hsign.mpr rfl), if_pos (hsign.mpr rfl)]
      refine .inl ⟨?_, rfl, rfl⟩
      rw [standing, standing, ha, hb]
      cases b <;> decide
    | positive =>
      have hpositive : ¬ Number.isNegative x = true := fun h => by cases hsign.mp h
      rw [if_neg hpositive, if_neg hpositive]
      refine .inr ⟨?_, rfl, rfl⟩
      rw [standing, standing, ha, hb]
      cases b <;> decide
  · rw [Number.lesser, Number.greater, if_neg hzeros, if_neg hzeros]
    rcases lt_trichotomy (rank x.toModel.unpack) (rank y.toModel.unpack) with hlt | heq | hgt
    · have hxy : x < y := (lt_iff_rank hx hy).mpr hlt
      have hyx : ¬ y < x := fun h => lt_asymm hlt ((lt_iff_rank hy hx).mp h)
      rw [if_pos hxy, if_neg hyx]
      exact .inl ⟨(standing_lt_of_lt hx hy hxy).le, rfl, rfl⟩
    · rcases eq_or_zeros_of_rank_eq hx hy heq with hsame | ⟨ha, hb⟩
      · obtain rfl := Binary64.eq_of_unpack_eq hsame
        refine .inl ⟨le_refl _, ite_self _, ite_self _⟩
      · exact absurd (Bool.and_eq_true_iff.mpr ⟨(beq_zero_iff x).mpr ha, (beq_zero_iff y).mpr hb⟩)
          hzeros
    · have hyx : y < x := (lt_iff_rank hy hx).mpr hgt
      have hxy : ¬ x < y := fun h => lt_asymm hgt ((lt_iff_rank hx hy).mp h)
      rw [if_neg hxy, if_pos hyx]
      exact .inr ⟨(standing_lt_of_lt hy hx hyx).le, rfl, rfl⟩

namespace Value

/-- The number that a value is. -/
def number? : Value → Option Float
  | .number x => some x
  | _ => none

/-- Whether a search for the least or greatest number ends at a value: it is NaN or no number. -/
def endsSearch (v : Value) : Bool := v.isNaN || v.type != .number

/-- Of all numbers, only NaN ends a search. -/
theorem endsSearch_number (x : Float) : (number x).endsSearch = x.isNaN := Bool.or_false _

/-- There is one NaN. -/
theorem eq_nan_of_isNaN {v : Value} (h : v.isNaN = true) : v = .number .nan := by
  cases v with
  | number x => rw [of_decide_eq_true (Float.isNaN_eq_decide_eq_nan.symm.trans h)]
  | _ => cases h

/-- What is no number ends a search. -/
theorem endsSearch_of_type {v : Value} (h : v.type ≠ .number) : v.endsSearch = true := by
  simp [endsSearch, h]

end Value

/-- A search ends at the first value that is NaN or no number. If there is none, it keeps one of all
the numbers. -/
theorem Builtin.extreme_eq (b : Builtin) (op : Float → Float → Float) (best : Float)
    (args : List Value) : extreme b op best args =
      (args.find? Value.endsSearch).elim
        (.ok (.number ((args.filterMap Value.number?).foldl op best)))
        fun v => if v.isNaN = true then .ok v else .error (.wrongType b.label .number v.type) := by
  induction args generalizing best with
  | nil => rfl
  | cons v rest ih =>
    cases v with
    | number x =>
      change (if x.isNaN = true then Except.ok (.number x) else extreme b op (op best x) rest) = _
      by_cases hx : x.isNaN = true
      · rw [List.find?_cons_of_pos ((Value.endsSearch_number x).trans hx), if_pos hx]
        exact (if_pos hx).symm
      · have hgoes : ¬ (Value.number x).endsSearch = true := by rwa [Value.endsSearch_number]
        rw [List.find?_cons_of_neg hgoes, if_neg hx, ih]
        rfl
    | _ => rfl

/-- One of the two ends of the order of numbers. -/
inductive Extremum where
  | least
  | greatest

namespace Extremum

/-- The builtin that looks for it. -/
def builtin : Extremum → Builtin
  | least => .min
  | greatest => .max

/-- What it is of no numbers at all. -/
def ofNone : Extremum → Float
  | least => Binary64.infinity .positive
  | greatest => Binary64.infinity .negative

/-- The number of two that is nearer to it. -/
def choose : Extremum → Float → Float → Float
  | least => Number.lesser
  | greatest => Number.greater

/-- One number is at least as near to it as another one. -/
def Beats : Extremum → Float → Float → Prop
  | least, x, y => x ≤ y
  | greatest, x, y => y ≤ x

/-- One number is nearer to it than another one, or they are the same. -/
def Precedes : Extremum → Float → Float → Prop
  | least, x, y => standing x ≤ standing y
  | greatest, x, y => standing y ≤ standing x

variable {e : Extremum} {x y z : Float}

/-- A number precedes itself. -/
theorem Precedes.refl (e : Extremum) (x : Float) : e.Precedes x x := by
  cases e <;> exact le_refl _

/-- Precedence is transitive. -/
theorem Precedes.trans (h : e.Precedes x y) (h' : e.Precedes y z) : e.Precedes x z := by
  cases e with
  | least => exact le_trans h h'
  | greatest => exact le_trans h' h

/-- Numbers other than NaN that precede each other are the same. -/
theorem Precedes.antisymm (hx : x.isNaN = false) (hy : y.isNaN = false) (h : e.Precedes x y)
    (h' : e.Precedes y x) : x = y := by
  cases e with
  | least => exact eq_of_standing_eq hx hy (le_antisymm h h')
  | greatest => exact eq_of_standing_eq hx hy (le_antisymm h' h)

/-- A number that precedes another one is at least as near to the end of the order. -/
theorem Precedes.beats (hx : x.isNaN = false) (hy : y.isNaN = false) (h : e.Precedes x y) :
    e.Beats x y := by
  cases e with
  | least => exact le_of_standing_le hx hy h
  | greatest => exact le_of_standing_le hy hx h

/-- Every number precedes what is the extremum of no numbers. -/
theorem precedes_ofNone (e : Extremum) (x : Float) : e.Precedes x e.ofNone := by
  cases e with
  | least =>
    change standing x ≤ standing (Binary64.infinity .positive)
    rw [standing, standing, Binary64.unpack_infinity]
    cases x.toModel.unpack with
    | notANumber => decide
    | zero a | infinity a => cases a <;> decide
    | finite a =>
      refine Prod.Lex.toLex_le_toLex.mpr (.inl ?_)
      cases a <;> exact Prod.Lex.toLex_lt_toLex.mpr (.inl (by simp))
  | greatest =>
    change standing (Binary64.infinity .negative) ≤ standing x
    rw [standing, standing, Binary64.unpack_infinity]
    cases x.toModel.unpack with
    | notANumber => decide
    | zero a | infinity a => cases a <;> decide
    | finite a =>
      refine Prod.Lex.toLex_le_toLex.mpr (.inl ?_)
      cases a <;> exact Prod.Lex.toLex_lt_toLex.mpr (.inl (by simp))

/-- The extremum of no numbers is not NaN. -/
theorem isNaN_ofNone (e : Extremum) : e.ofNone.isNaN = false := by cases e <;> decide

/-- Of two numbers the one that precedes the other is chosen. -/
theorem choose_cases (e : Extremum) (hx : x.isNaN = false) (hy : y.isNaN = false) :
    e.Precedes x y ∧ e.choose x y = x ∨ e.Precedes y x ∧ e.choose x y = y := by
  rcases lesser_greater_cases hx hy with ⟨hle, hlesser, hgreater⟩ | ⟨hle, hlesser, hgreater⟩ <;>
    cases e
  · exact .inl ⟨hle, hlesser⟩
  · exact .inr ⟨hle, hgreater⟩
  · exact .inr ⟨hle, hlesser⟩
  · exact .inl ⟨hle, hgreater⟩

/-- What is kept of some numbers is one of them, and no other one precedes it. -/
theorem foldl_choose (e : Extremum) {best : Float} {xs : List Float} (hbest : best.isNaN = false)
    (hxs : ∀ x ∈ xs, x.isNaN = false) :
    xs.foldl e.choose best ∈ best :: xs ∧
      ∀ x ∈ best :: xs, e.Precedes (xs.foldl e.choose best) x := by
  induction xs generalizing best with
  | nil => simp [Precedes.refl]
  | cons y ys ih =>
    obtain ⟨hy, hys⟩ := List.forall_mem_cons.mp hxs
    rw [List.foldl_cons]
    rcases e.choose_cases hbest hy with ⟨hbefore, heq⟩ | ⟨hbefore, heq⟩ <;> rw [heq]
    · obtain ⟨hmem, hall⟩ := ih hbest hys
      obtain ⟨hfirst, hrest⟩ := List.forall_mem_cons.mp hall
      refine ⟨?_, List.forall_mem_cons.mpr ⟨hfirst, List.forall_mem_cons.mpr
        ⟨hfirst.trans hbefore, hrest⟩⟩⟩
      exact List.mem_cons.mpr ((List.mem_cons.mp hmem).imp_right (List.mem_cons_of_mem y))
    · obtain ⟨hmem, hall⟩ := ih hy hys
      obtain ⟨hfirst, -⟩ := List.forall_mem_cons.mp hall
      exact ⟨List.mem_cons_of_mem best hmem, List.forall_mem_cons.mpr ⟨hfirst.trans hbefore, hall⟩⟩

/-- The order of the numbers does not matter. -/
theorem foldl_choose_perm (e : Extremum) {best : Float} {xs ys : List Float}
    (hbest : best.isNaN = false) (hxs : ∀ x ∈ xs, x.isNaN = false) (hperm : xs.Perm ys) :
    xs.foldl e.choose best = ys.foldl e.choose best := by
  have hys : ∀ y ∈ ys, y.isNaN = false := fun y hy => hxs y (hperm.mem_iff.mpr hy)
  have hmem : ∀ z, z ∈ best :: xs ↔ z ∈ best :: ys := fun z => (hperm.cons best).mem_iff
  obtain ⟨hin, hfirst⟩ := e.foldl_choose hbest hxs
  obtain ⟨hin', hfirst'⟩ := e.foldl_choose hbest hys
  have hnan : ∀ z ∈ best :: xs, z.isNaN = false := List.forall_mem_cons.mpr ⟨hbest, hxs⟩
  have hnan' : ∀ z ∈ best :: ys, z.isNaN = false := List.forall_mem_cons.mpr ⟨hbest, hys⟩
  exact (hfirst _ ((hmem _).mpr hin')).antisymm (hnan _ hin) (hnan' _ hin')
    (hfirst' _ ((hmem _).mp hin))

/-- What a call of the builtin comes to. -/
def outcome (e : Extremum) (args : List Value) (s : Store) : Outcome :=
  ⟨(Builtin.extreme e.builtin e.choose e.ofNone args).mapError .unplaced, s⟩

/-- A call of the builtin comes to its outcome. -/
theorem comesTo_outcome (e : Extremum) (args : List Value) (s : Store) :
    e.builtin.ComesTo args s (e.outcome args s) := by
  cases e <;> exact Builtin.comesTo_of_pure rfl rfl

end Extremum

/-- A type error. -/
def Outcome.IsTypeError (o : Outcome) : Prop :=
  ∃ fault, o.result = .error fault ∧ fault.cause.kind = .typeError

/-- A value is no type error. -/
theorem Outcome.not_isTypeError_value (v : Value) (s : Store) :
    ¬ (⟨.ok v, s⟩ : Outcome).IsTypeError := by
  rintro ⟨fault, hfault, -⟩
  cases hfault

/-- Two type errors, or the same outcome. -/
def Outcome.Alike (o o' : Outcome) : Prop := o.IsTypeError ∧ o'.IsTypeError ∨ o = o'

namespace Extremum

/-- What is expected of the least or the greatest of some values: it fails with a type error exactly
if one of them is no number, it is NaN if one of them is, and otherwise it is one of them that beats
the others. -/
structure Fits (e : Extremum) (args : List Value) (o : Outcome) : Prop where
  typeError : o.IsTypeError ↔ ∃ v ∈ args, v.type ≠ .number
  nan : (∀ v ∈ args, v.type = .number) → (∃ v ∈ args, v.isNaN = true) →
    o.result = .ok (.number .nan)
  none : args = [] → o.result = .ok (.number e.ofNone)
  best : args ≠ [] → (∀ v ∈ args, v.type = .number ∧ v.isNaN = false) →
    ∃ x, .number x ∈ args ∧ o.result = .ok (.number x) ∧ ∀ y, .number y ∈ args → e.Beats x y

/-- NaN and something that is no number are both among some values. -/
def Clash (args : List Value) : Prop :=
  (∃ v ∈ args, v.isNaN = true) ∧ ∃ v ∈ args, v.type ≠ .number

variable {args args' : List Value} {v : Value} (s : Store)

/-- A search that is ended by what is no number is a type error. -/
theorem isTypeError_outcome (e : Extremum) (hfind : args.find? Value.endsSearch = some v)
    (hv : v.type ≠ .number) : (e.outcome args s).IsTypeError := by
  have hnan : ¬ v.isNaN = true := fun h => hv (by rw [Value.eq_nan_of_isNaN h]; rfl)
  refine ⟨.unplaced (.wrongType e.builtin.label .number v.type), ?_, rfl⟩
  rw [outcome, Builtin.extreme_eq, hfind, Option.elim_some, if_neg hnan]
  rfl

/-- A search that is ended by NaN gives NaN. -/
theorem outcome_eq_nan (e : Extremum) (hfind : args.find? Value.endsSearch = some v)
    (hv : v.isNaN = true) : e.outcome args s = ⟨.ok (.number .nan), s⟩ := by
  rw [outcome, Builtin.extreme_eq, hfind, Option.elim_some, if_pos hv, Value.eq_nan_of_isNaN hv]
  rfl

/-- A search through numbers other than NaN chooses between them from left to right. -/
theorem outcome_numbers (e : Extremum) {xs : List Float} (hxs : ∀ x ∈ xs, x.isNaN = false) :
    e.outcome (xs.map .number) s = ⟨.ok (.number (xs.foldl e.choose e.ofNone)), s⟩ := by
  have hfind : (xs.map Value.number).find? Value.endsSearch = none := by
    rw [List.find?_eq_none, List.forall_mem_map]
    intro x hx
    rw [Value.endsSearch_number, hxs x hx]
    exact Bool.false_ne_true
  have hnumbers : (xs.map Value.number).filterMap Value.number? = xs := by
    rw [List.filterMap_map]
    exact List.filterMap_some
  rw [outcome, Builtin.extreme_eq, hfind, Option.elim_none, hnumbers]
  rfl

/-- Values of which none ends a search are numbers other than NaN. -/
theorem exists_numbers (h : ∀ v ∈ args, v.type = .number ∧ v.isNaN = false) :
    ∃ xs : List Float, args = xs.map .number ∧ ∀ x ∈ xs, x.isNaN = false := by
  have hrange : args ∈ Set.range (List.map Value.number) := by
    rw [Set.range_list_map]
    intro v hv
    obtain ⟨x, rfl⟩ := eq_number_of_type (h v hv).1
    exact ⟨x, rfl⟩
  obtain ⟨xs, rfl⟩ := hrange
  exact ⟨xs, rfl, fun x hx => (h _ (List.mem_map_of_mem hx)).2⟩

/-- A search ends at something that is no number, or at NaN, or it goes through numbers only. -/
theorem search_cases (args : List Value) :
    (∃ v, args.find? Value.endsSearch = some v ∧ v.type ≠ .number) ∨
    (∃ v, args.find? Value.endsSearch = some v ∧ v.isNaN = true) ∨
    ∃ xs : List Float, args = xs.map .number ∧ ∀ x ∈ xs, x.isNaN = false := by
  cases hfind : args.find? Value.endsSearch with
  | some v =>
    have hends := List.find?_some hfind
    rw [Value.endsSearch, Bool.or_eq_true, bne_iff_ne] at hends
    rcases hends with hnan | htype
    · exact .inr (.inl ⟨v, rfl, hnan⟩)
    · exact .inl ⟨v, rfl, htype⟩
  | none =>
    refine .inr (.inr (exists_numbers fun v hv => ?_))
    have hgoes := List.find?_eq_none.mp hfind v hv
    simpa [Value.endsSearch, and_comm] using hgoes

section Kinds

variable (e : Extremum)

/-- Without NaN among the arguments, one that is no number gives a type error. -/
theorem isTypeError_of_mem (hnan : ∀ v ∈ args, v.isNaN = false) (h : ∃ v ∈ args, v.type ≠ .number) :
    (e.outcome args s).IsTypeError := by
  rcases search_cases args with ⟨v, hfind, hv⟩ | ⟨v, hfind, hv⟩ | ⟨xs, rfl, -⟩
  · exact e.isTypeError_outcome s hfind hv
  · cases hv.symm.trans (hnan v (List.mem_of_find?_eq_some hfind))
  · obtain ⟨v, hmem, hv⟩ := h
    obtain ⟨x, -, rfl⟩ := List.mem_map.mp hmem
    exact absurd rfl hv

/-- Among numbers only, NaN gives NaN. -/
theorem outcome_eq_nan_of_mem (hnumbers : ∀ v ∈ args, v.type = .number)
    (h : ∃ v ∈ args, v.isNaN = true) : e.outcome args s = ⟨.ok (.number .nan), s⟩ := by
  rcases search_cases args with ⟨v, hfind, hv⟩ | ⟨v, hfind, hv⟩ | ⟨xs, rfl, hxs⟩
  · exact absurd (hnumbers v (List.mem_of_find?_eq_some hfind)) hv
  · exact e.outcome_eq_nan s hfind hv
  · obtain ⟨v, hmem, hv⟩ := h
    obtain ⟨x, hx, rfl⟩ := List.mem_map.mp hmem
    cases hv.symm.trans (hxs x hx)

/-- What comes of numbers does not depend on their order. -/
theorem outcome_perm {xs : List Float} (hxs : ∀ x ∈ xs, x.isNaN = false)
    (hperm : args.Perm (xs.map .number)) : e.outcome args s = e.outcome (xs.map .number) s := by
  obtain ⟨ys, rfl, hys⟩ : ∃ ys : List Float, args = ys.map .number ∧ ∀ y ∈ ys, y.isNaN = false := by
    apply exists_numbers
    intro v hv
    obtain ⟨x, hx, rfl⟩ := List.mem_map.mp (hperm.mem_iff.mp hv)
    exact ⟨rfl, hxs x hx⟩
  have hperm' : ys.Perm xs := (List.map_perm_map_iff fun _ _ => Value.number.inj).mp hperm
  rw [e.outcome_numbers s hxs, e.outcome_numbers s hys,
    e.foldl_choose_perm e.isNaN_ofNone hys hperm']

/-- Without NaN among the arguments, the outcome is as expected if one of them is no number. -/
theorem fits_of_mem (hnan : ∀ v ∈ args, v.isNaN = false) (h : ∃ v ∈ args, v.type ≠ .number) :
    e.Fits args (e.outcome args s) := by
  obtain ⟨w, hmem, hw⟩ := h
  exact {
    typeError := iff_of_true (e.isTypeError_of_mem s hnan ⟨w, hmem, hw⟩) ⟨w, hmem, hw⟩
    nan := fun hnumbers _ => absurd (hnumbers w hmem) hw
    none := fun hnil => absurd (hnil ▸ hmem) List.not_mem_nil
    best := fun _ hnumbers => absurd (hnumbers w hmem).1 hw }

/-- Among numbers only, the outcome is as expected if one of them is NaN. -/
theorem fits_of_nan (hnumbers : ∀ v ∈ args, v.type = .number) (h : ∃ v ∈ args, v.isNaN = true) :
    e.Fits args (e.outcome args s) := by
  have houtcome := e.outcome_eq_nan_of_mem s hnumbers h
  obtain ⟨w, hmem, hw⟩ := h
  refine ⟨?_, fun _ _ => congrArg Outcome.result houtcome,
    fun hnil => absurd (hnil ▸ hmem) List.not_mem_nil,
    fun _ hall => absurd hw (Bool.eq_false_iff.mp (hall w hmem).2)⟩
  rw [houtcome]
  refine iff_of_false (Outcome.not_isTypeError_value _ s) ?_
  rintro ⟨v, hv, htype⟩
  exact htype (hnumbers v hv)

/-- Among numbers other than NaN, the outcome is as expected: the number to start with is behind all
others, so it is kept only if it is one of them. -/
theorem fits_numbers {xs : List Float} (hxs : ∀ x ∈ xs, x.isNaN = false) :
    e.Fits (xs.map .number) (e.outcome (xs.map .number) s) := by
  obtain ⟨hmem, hfirst⟩ := e.foldl_choose e.isNaN_ofNone hxs
  rw [e.outcome_numbers s hxs]
  refine ⟨iff_of_false (Outcome.not_isTypeError_value _ s) ?_, fun _ hnan => ?_, fun hnil => ?_,
    fun hne _ => ?_⟩
  · rintro ⟨v, hv, htype⟩
    obtain ⟨x, -, rfl⟩ := List.mem_map.mp hv
    exact htype rfl
  · obtain ⟨v, hv, hnan⟩ := hnan
    obtain ⟨x, hx, rfl⟩ := List.mem_map.mp hv
    cases hnan.symm.trans (hxs x hx)
  · rw [List.map_eq_nil_iff.mp hnil]
    rfl
  · have hkept : xs.foldl e.choose e.ofNone ∈ xs := by
      rcases List.mem_cons.mp hmem with hnone | hkept
      · obtain ⟨x, hx⟩ := List.exists_mem_of_ne_nil xs fun hnil => hne (by rw [hnil]; rfl)
        have hbefore := hfirst x (List.mem_cons_of_mem _ hx)
        rw [hnone] at hbefore ⊢
        rwa [hbefore.antisymm e.isNaN_ofNone (hxs x hx) (e.precedes_ofNone x)]
      · exact hkept
    refine ⟨_, List.mem_map_of_mem hkept, rfl, fun y hy => ?_⟩
    obtain ⟨z, hz, heq⟩ := List.mem_map.mp hy
    obtain rfl := Value.number.inj heq
    exact (hfirst z (List.mem_cons_of_mem _ hz)).beats (hxs _ hkept) (hxs z hz)

/-- Values that clash come to NaN in one order and to a type error in another one. -/
theorem exists_perm_of_clash (h : Clash args) :
    (∃ args', args'.Perm args ∧ e.outcome args' s = ⟨.ok (.number .nan), s⟩) ∧
      ∃ args', args'.Perm args ∧ (e.outcome args' s).IsTypeError := by
  obtain ⟨⟨v, hv, hnan⟩, ⟨w, hw, htype⟩⟩ := h
  have hends : v.endsSearch = true := by rw [Value.endsSearch, hnan, Bool.true_or]
  exact ⟨⟨v :: args.erase v, (List.perm_cons_erase hv).symm,
      e.outcome_eq_nan s (List.find?_cons_of_pos hends) hnan⟩,
    ⟨w :: args.erase w, (List.perm_cons_erase hw).symm,
      e.isTypeError_outcome s (List.find?_cons_of_pos (Value.endsSearch_of_type htype)) htype⟩⟩

/-- The outcome is a type error exactly if what ends the search is no number. -/
theorem isTypeError_outcome_iff :
    (e.outcome args s).IsTypeError ↔
      ∃ v, args.find? Value.endsSearch = some v ∧ v.type ≠ .number := by
  constructor
  · intro h
    rcases search_cases args with hother | ⟨v, hfind, hv⟩ | ⟨xs, rfl, hxs⟩
    · exact hother
    · rw [e.outcome_eq_nan s hfind hv] at h
      exact absurd h (Outcome.not_isTypeError_value _ s)
    · rw [e.outcome_numbers s hxs] at h
      exact absurd h (Outcome.not_isTypeError_value _ s)
  · rintro ⟨v, hfind, hv⟩
    exact e.isTypeError_outcome s hfind hv

/-- The outcome is NaN exactly if the search is ended by NaN. -/
theorem result_outcome_eq_nan_iff :
    (e.outcome args s).result = .ok (.number .nan) ↔
      ∃ v, args.find? Value.endsSearch = some v ∧ v.isNaN = true := by
  constructor
  · intro h
    rcases search_cases args with ⟨v, hfind, hv⟩ | hnan | ⟨xs, rfl, hxs⟩
    · obtain ⟨fault, hfault, -⟩ := e.isTypeError_outcome s hfind hv
      cases hfault.symm.trans h
    · exact hnan
    · rw [e.outcome_numbers s hxs] at h
      obtain ⟨hmem, -⟩ := e.foldl_choose e.isNaN_ofNone hxs
      have hnan : ∀ x ∈ e.ofNone :: xs, x.isNaN = false :=
        List.forall_mem_cons.mpr ⟨e.isNaN_ofNone, hxs⟩
      have hkept := hnan _ hmem
      rw [Value.number.inj (Except.ok.inj h)] at hkept
      cases hkept
  · rintro ⟨v, hfind, hv⟩
    rw [e.outcome_eq_nan s hfind hv]

/-- Values that do not clash: some are no numbers, or all are numbers and some NaN, or all are
numbers other than NaN. -/
theorem kinds_of_not_clash (h : ¬ Clash args) :
    ((∀ v ∈ args, v.isNaN = false) ∧ ∃ v ∈ args, v.type ≠ .number) ∨
    ((∀ v ∈ args, v.type = .number) ∧ ∃ v ∈ args, v.isNaN = true) ∨
    ∃ xs : List Float, args = xs.map .number ∧ ∀ x ∈ xs, x.isNaN = false := by
  by_cases hother : ∃ v ∈ args, v.type ≠ .number
  · refine .inl ⟨fun v hv => ?_, hother⟩
    exact Bool.eq_false_iff.mpr fun hnan => h ⟨⟨v, hv, hnan⟩, hother⟩
  · have hnumbers : ∀ v ∈ args, v.type = .number :=
      fun v hv => by_contra fun htype => hother ⟨v, hv, htype⟩
    by_cases hnan : ∃ v ∈ args, v.isNaN = true
    · exact .inr (.inl ⟨hnumbers, hnan⟩)
    · refine .inr (.inr (exists_numbers fun v hv => ⟨hnumbers v hv, ?_⟩))
      exact Bool.eq_false_iff.mpr fun h => hnan ⟨v, hv, h⟩

/-- If NaN and what is no number are not both among the arguments, the outcome is as expected. -/
theorem fits_of_not_clash (h : ¬ Clash args) : e.Fits args (e.outcome args s) := by
  rcases kinds_of_not_clash h with ⟨hnan, hother⟩ | ⟨hnumbers, hnan⟩ | ⟨xs, rfl, hxs⟩
  · exact e.fits_of_mem s hnan hother
  · exact e.fits_of_nan s hnumbers hnan
  · exact e.fits_numbers s hxs

/-- If NaN and what is no number are not both among the arguments, their order makes no
difference. -/
theorem alike_of_perm (h : ¬ Clash args) (hperm : args'.Perm args) :
    (e.outcome args' s).Alike (e.outcome args s) := by
  have hexists (P : Value → Prop) : (∃ v ∈ args, P v) → ∃ v ∈ args', P v := by
    rintro ⟨v, hv, hP⟩
    exact ⟨v, hperm.mem_iff.mpr hv, hP⟩
  have hforall (P : Value → Prop) : (∀ v ∈ args, P v) → ∀ v ∈ args', P v :=
    fun hP v hv => hP v (hperm.mem_iff.mp hv)
  rcases kinds_of_not_clash h with ⟨hnan, hother⟩ | ⟨hnumbers, hnan⟩ | ⟨xs, rfl, hxs⟩
  · exact .inl ⟨e.isTypeError_of_mem s (hforall _ hnan) (hexists _ hother),
      e.isTypeError_of_mem s hnan hother⟩
  · exact .inr ((e.outcome_eq_nan_of_mem s (hforall _ hnumbers) (hexists _ hnan)).trans
      (e.outcome_eq_nan_of_mem s hnumbers hnan).symm)
  · exact .inr (e.outcome_perm s hxs hperm)

end Kinds

end Extremum

/-- The least or the greatest of some values is what is expected of it, and the same in every order,
exactly if NaN and something that is no number are not both among them. If both are, the one that
comes first decides: the outcome is NaN or a type error. -/
theorem extremum_fits_iff (e : Extremum) (s : Store) (args : List Value) :
    ((∃ o, e.builtin.ComesTo args s o ∧ e.Fits args o ∧
        ∀ args', args'.Perm args → ∃ o', e.builtin.ComesTo args' s o' ∧ o'.Alike o) ↔
      ¬ Extremum.Clash args) ∧
    ∃ o, e.builtin.ComesTo args s o ∧ o.store = s ∧
      (o.IsTypeError ↔ ∃ v, args.find? Value.endsSearch = some v ∧ v.type ≠ .number) ∧
      (o.result = .ok (.number .nan) ↔
        ∃ v, args.find? Value.endsSearch = some v ∧ v.isNaN = true) := by
  refine ⟨⟨?_, fun hclash => ?_⟩, ?_⟩
  · rintro ⟨o, -, -, hperm⟩ hclash
    have halike : ∀ args', args'.Perm args → (e.outcome args' s).Alike o := by
      intro args' h
      obtain ⟨o', hcomes, halike⟩ := hperm args' h
      rwa [(e.comesTo_outcome args' s).unique hcomes]
    obtain ⟨⟨args₁, hperm₁, hnan₁⟩, ⟨args₂, hperm₂, herror₂⟩⟩ := e.exists_perm_of_clash s hclash
    have herror : o.IsTypeError := by
      rcases halike args₂ hperm₂ with ⟨-, herror⟩ | heq
      · exact herror
      · exact heq ▸ herror₂
    rcases halike args₁ hperm₁ with ⟨herror₁, -⟩ | heq
    · exact Outcome.not_isTypeError_value _ s (hnan₁ ▸ herror₁)
    · exact Outcome.not_isTypeError_value _ s (hnan₁ ▸ heq ▸ herror)
  · exact ⟨_, e.comesTo_outcome args s, e.fits_of_not_clash s hclash,
      fun args' hperm => ⟨_, e.comesTo_outcome args' s, e.alike_of_perm s hclash hperm⟩⟩
  · exact ⟨_, e.comesTo_outcome args s, rfl, e.isTypeError_outcome_iff s,
      e.result_outcome_eq_nan_iff s⟩

/-- Zero divided by zero hides that a text is no number, unless the text comes first. -/
theorem min_nan_text :
    ["min(/(0, 0), \"a\")", "min(\"a\", /(0, 0))"].map (fun src =>
      (execute ⟨none, none⟩ 100 src 1 (Store.initial (.fresh none) false).2).map Outcome.result) =
    [some (.ok (.number .nan)),
      some (.error (.placed (.wrongType "min" .number .string) ⟨1, 1⟩))] := by
  decide +kernel

end TinyScript
