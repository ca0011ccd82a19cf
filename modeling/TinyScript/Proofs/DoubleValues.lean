import TinyScript.Number.Rounding
import TinyScript.Proofs.Decimals
import TinyScript.Proofs.NaturalSort

/-!
# The values of doubles

Every double other than the infinities and NaN has a value, a fraction. By it doubles are compared,
rounded and counted with. Sums are rounded, but a sum that doubles have is exact; so whole numbers
up to `2 ^ 53` are added exactly.
-/

namespace TinyScript.Binary64

open Float.Model Float.Model.UnpackedFloat

/-- The value of an unpacked double; infinities and NaN have none. -/
def unpackedValue? : UnpackedFloat → Option ℚ
  | .zero _ => some 0
  | .finite s m e _ => some (s.apply m * 2 ^ e)
  | .infinity _ | .notANumber => none

/-- The value of a double; infinities and NaN have none. -/
def value? (x : Float) : Option ℚ := unpackedValue? x.toModel.unpack

/-- A double with a value is a zero, or a sign with a mantissa and an exponent that make up the
value. -/
theorem unpack_of_value? {x : Float} {q : ℚ} (h : value? x = some q) :
    (∃ s, x.toModel.unpack = .zero s ∧ q = 0) ∨
      ∃ (s : Sign) (m : ℕ) (e : ℤ) (hm : 0 < m),
        x.toModel.unpack = .finite s m e hm ∧ q = s.apply m * 2 ^ e := by
  rw [value?] at h
  cases hx : x.toModel.unpack with
  | zero s =>
    rw [hx] at h
    exact Or.inl ⟨s, rfl, (Option.some.inj h).symm⟩
  | finite s m e hm =>
    rw [hx] at h
    exact Or.inr ⟨s, m, e, hm, rfl, (Option.some.inj h).symm⟩
  | infinity s =>
    rw [hx] at h
    cases h
  | notANumber =>
    rw [hx] at h
    cases h

/-- A double with a value is not NaN. -/
theorem isNaN_of_value? {x : Float} {q : ℚ} (h : value? x = some q) : x.isNaN = false := by
  change x.toModel.unpack.isNaN = false
  rcases unpack_of_value? h with ⟨s, hx, -⟩ | ⟨s, m, e, hm, hx, -⟩ <;> rw [hx] <;> rfl

/-- Exponents of doubles are at most 971. -/
theorem exponent_le {x : Float} {s : Sign} {m : ℕ} {e : ℤ} {hm : 0 < m}
    (h : x.toModel.unpack = .finite s m e hm) : e ≤ 971 := by
  by_contra hlarge
  have hpack := pack_unpack_model x
  rw [h, pack_of_large hm (by omega)] at hpack
  have hinfinity : (Float.Model.pack (.infinity s)).unpack = .infinity s := by cases s <;> rfl
  rw [← hpack] at h
  cases hinfinity.symm.trans h

/-- The integer that is left of a value without its fraction. -/
def towardsZero (q : ℚ) : ℤ := if 0 ≤ q then ⌊q⌋ else ⌈q⌉

/-- An integer has no fraction to lose. -/
@[simp] theorem towardsZero_intCast (k : ℤ) : towardsZero k = k := by
  unfold towardsZero
  split_ifs <;> simp

/-- The integer left of the opposite value is the opposite one. -/
theorem towardsZero_neg (q : ℚ) : towardsZero (-q) = -towardsZero q := by
  unfold towardsZero
  rcases lt_trichotomy q 0 with hq | rfl | hq
  · rw [if_pos (by linarith), if_neg (by linarith), Int.floor_neg]
  · simp
  · rw [if_neg (by linarith), if_pos hq.le, Int.ceil_neg]

/-- Rounding a double to an integer leaves its value without the fraction: shifting the mantissa to
the left loses nothing, and shifting it to the right loses the fraction. -/
theorem roundToInt_eq (s : Sign) (m : ℕ) (e : ℤ) :
    roundToInt s m e = towardsZero (s.apply m * 2 ^ e) := by
  have hvalue : ((m <<< (e - 0).toNat : ℕ) : ℚ) / 2 ^ (0 - (e - (e - 0).toNat)).toNat =
      m * 2 ^ e := by
    rw [Nat.shiftLeft_eq, Nat.cast_mul, Nat.cast_pow, Nat.cast_ofNat, mul_div_assoc,
      ← zpow_natCast, ← zpow_natCast, ← zpow_sub₀ (by norm_num)]
    congr 2
    omega
  have hfloor := ((holds_exact (m <<< (e - 0).toNat)).shiftRight
    (0 - (e - (e - 0).toNat)).toNat).floor_eq
  rw [hvalue] at hfloor
  have hmantissa : towardsZero (m * 2 ^ e) = (⌊(m * 2 ^ e : ℚ)⌋₊ : ℤ) := by
    have hnonneg : (0 : ℚ) ≤ m * 2 ^ e := by positivity
    rw [towardsZero, if_pos hnonneg, Int.natCast_floor_eq_floor hnonneg]
  cases s with
  | positive =>
    change ((ExtendedMantissa.mantissa _ : ℕ) : ℤ) = towardsZero ((m : ℤ) * 2 ^ e)
    rw [Int.cast_natCast, hmantissa, hfloor]
  | negative =>
    change -((ExtendedMantissa.mantissa _ : ℕ) : ℤ) = towardsZero ((-(m : ℤ) : ℤ) * 2 ^ e)
    rw [Int.cast_neg, Int.cast_natCast, neg_mul, towardsZero_neg, hmantissa, hfloor]

/-- The integer part of a double is that of its value. -/
theorem truncate_eq {x : Float} {q : ℚ} (h : value? x = some q) (least most : ℤ) :
    Number.truncate least most x = towardsZero q := by
  rw [Number.truncate]
  rcases unpack_of_value? h with ⟨s, hx, rfl⟩ | ⟨s, m, e, hm, hx, rfl⟩
  · rw [hx]
    simp [toInt, towardsZero]
  · rw [hx]
    exact roundToInt_eq s m e

/-- A double whose value is an integer has no fraction. -/
theorem isIntegral_of_value? {x : Float} {k : ℤ} (h : value? x = some (k : ℚ)) :
    Number.isIntegral x = true := by
  rw [Number.isIntegral]
  rcases unpack_of_value? h with ⟨s, hx, -⟩ | ⟨s, m, e, hm, hx, hk⟩
  · rw [hx]
  · rw [hx]
    simp only [Bool.or_eq_true, decide_eq_true_eq, beq_iff_eq]
    rcases le_or_gt 0 e with he | he
    · exact Or.inl he
    · right
      have hpower : (2 : ℚ) ^ e = (2 ^ (-e).toNat)⁻¹ := by
        rw [← zpow_natCast, ← zpow_neg, Int.toNat_of_nonneg (by omega), neg_neg]
      have hproduct : s.apply m = k * 2 ^ (-e).toNat := by
        rw [hpower, ← div_eq_mul_inv, eq_div_iff (by positivity)] at hk
        exact_mod_cast hk.symm
      have hmantissa : m = k.natAbs * 2 ^ (-e).toNat := by
        have habs := congrArg Int.natAbs hproduct
        rw [Int.natAbs_mul, Int.natAbs_pow] at habs
        cases s with
        | positive => exact habs
        | negative => simpa [Sign.apply] using habs
      rw [hmantissa]
      exact Nat.mul_mod_left _ _

/-- A double whose value is an integer counts as that integer. -/
theorem toIndex?_eq_some {x : Float} {k : ℤ} (h : value? x = some (k : ℚ)) :
    Number.toIndex? x = some k := by
  rw [Number.toIndex?, if_pos (isIntegral_of_value? h), truncate_eq h, towardsZero_intCast]

/-- A value that a double has is the value of the double nearest to it. -/
theorem value?_toDouble {q : ℚ} (h : Exact q) : value? (toDouble q) = some q := by
  obtain ⟨m, e, hm, -, hvalue, hunpack⟩ := h.unpack_toDouble
  rw [value?, hunpack, ← hvalue]
  simp [unpackedValue?, Sign.apply]

/-- Doubles have all positive integers up to `2 ^ 53`. -/
theorem exact_natCast {n : ℕ} (hn : 0 < n) (hle : n ≤ 2 ^ 53) : Exact n := by
  rcases hle.lt_or_eq with hlt | rfl
  · simpa using exact_of_lt hn hlt (by decide : (-1022 : ℤ) ≤ 0) (by decide)
  · have hvalue : ((2 ^ 53 : ℕ) : ℚ) = (1 : ℕ) * 2 ^ (53 : ℤ) := by norm_num
    rw [hvalue]
    exact exact_of_lt (by decide) (by decide) (by decide) (by decide)

/-- A natural number becomes the double nearest to it. -/
theorem ofNat_eq_toDouble (n : ℕ) : Float.ofNat n = toDouble n := by
  change Float.ofScientific n false 0 = _
  rw [ofScientific_eq]
  simp

/-- Doubles have all whole numbers up to `2 ^ 53`. -/
theorem value?_ofNat {n : ℕ} (hle : n ≤ 2 ^ 53) : value? (Float.ofNat n) = some (n : ℚ) := by
  rw [ofNat_eq_toDouble]
  rcases Nat.eq_zero_or_pos n with rfl | hn
  · rw [Nat.cast_zero, value?, unpack_toDouble_zero]
    rfl
  · exact value?_toDouble (exact_natCast hn hle)

/-- Zero has the value zero. -/
theorem value?_zero : value? (0 : Float) = some 0 := by
  have hzero := value?_ofNat (Nat.zero_le (2 ^ 53))
  rwa [Nat.cast_zero] at hzero

/-- Both zeros have the value zero. -/
theorem value?_signedZero (s : Sign) : value? (.ofModel (Float.Model.pack (.zero s))) = some 0 := by
  cases s <;> rfl

/-- The opposite sign gives the opposite integer. -/
theorem apply_neg (s : Sign) (k : ℤ) : (-s).apply k = -s.apply k := by
  cases s with
  | positive => rfl
  | negative => exact (neg_neg k).symm

/-- The opposite double has the opposite value. -/
theorem value?_neg {x : Float} {q : ℚ} (h : value? x = some q) : value? (-x) = some (-q) := by
  change unpackedValue? (Float.Model.pack (x.toModel.unpack.neg)).unpack = some (-q)
  rcases unpack_of_value? h with ⟨s, hx, rfl⟩ | ⟨s, m, e, hm, hx, rfl⟩
  · rw [hx, neg_zero]
    exact value?_signedZero (-s)
  · rw [hx, UnpackedFloat.neg, unpack_pack (canonical_of_unpack hx) (exponent_le hx)]
    simp only [unpackedValue?, apply_neg, Int.cast_neg, neg_mul]

/-- Of two mantissas in their units, the one in the larger unit is greater, since it has all its
bits. -/
theorem Canonical.lt_of_lex {m n : ℕ} {e f : ℤ} (hm : Canonical m e) (hn : Canonical n f)
    (h : e < f ∨ e = f ∧ m < n) : (m * 2 ^ e : ℚ) < n * 2 ^ f := by
  rcases h with hlt | ⟨rfl, hlt⟩
  · have hbits : 2 ^ 52 ≤ n := by
      have hmin := hm.le
      rcases hn.normal with hlow | hlow
      · exact hlow
      · omega
    calc (m * 2 ^ e : ℚ) < 2 ^ 53 * 2 ^ e := by
          gcongr
          exact_mod_cast hm.lt
      _ = 2 ^ 52 * 2 ^ (e + 1) := by
          rw [zpow_add₀ (by norm_num)]
          ring
      _ ≤ n * 2 ^ f := by
          gcongr
          · exact_mod_cast hbits
          · norm_num
          · exact hlt
  · gcongr

/-- Doubles without sign are in the order of their exponents, and with the same exponent in that of
their mantissas. -/
theorem Canonical.lt_iff_lex {m n : ℕ} {e f : ℤ} (hm : Canonical m e) (hn : Canonical n f) :
    (m * 2 ^ e : ℚ) < n * 2 ^ f ↔ e < f ∨ e = f ∧ m < n := by
  constructor
  · intro h
    by_contra hlex
    rcases lt_trichotomy f e with hlt | rfl | hlt
    · exact lt_asymm h (hn.lt_of_lex hm (Or.inl hlt))
    · rcases lt_trichotomy n m with hlt | rfl | hlt
      · exact lt_asymm h (hn.lt_of_lex hm (Or.inr ⟨rfl, hlt⟩))
      · exact lt_irrefl _ h
      · exact hlex (Or.inr ⟨rfl, hlt⟩)
    · exact hlex (Or.inl hlt)
  · exact hm.lt_of_lex hn

/-- Finite doubles are compared by their values. -/
theorem lt_iff_value {x y : Float} {q r : ℚ} (hx : value? x = some q) (hy : value? y = some r) :
    x < y ↔ q < r := by
  rw [lt_iff_rank (isNaN_of_value? hx) (isNaN_of_value? hy)]
  have hpos {m : ℕ} (hm : 0 < m) (e : ℤ) : (0 : ℚ) < m * 2 ^ e := by positivity
  rcases unpack_of_value? hx with ⟨s, hx', rfl⟩ | ⟨s, m, e, hm, hx', rfl⟩
  · rcases unpack_of_value? hy with ⟨s', hy', rfl⟩ | ⟨s', n, f, hn, hy', rfl⟩
    · rw [hx', hy']
      simp [rank]
    · have hright := hpos hn f
      rw [hx', hy']
      cases s' <;> simp [rank, Sign.apply, Prod.Lex.toLex_lt_toLex] <;> linarith
  · have hleft := hpos hm e
    rcases unpack_of_value? hy with ⟨s', hy', rfl⟩ | ⟨s', n, f, hn, hy', rfl⟩
    · rw [hx', hy']
      cases s <;> simp [rank, Sign.apply, Prod.Lex.toLex_lt_toLex] <;> linarith
    · have hright := hpos hn f
      have hlex := (canonical_of_unpack hx').lt_iff_lex (canonical_of_unpack hy')
      have hlex' := (canonical_of_unpack hy').lt_iff_lex (canonical_of_unpack hx')
      rw [hx', hy']
      cases s with
      | positive =>
        cases s' with
        | positive => simp [rank, Sign.apply, Prod.Lex.toLex_lt_toLex, hlex]
        | negative =>
          simp [rank, Sign.apply, Prod.Lex.toLex_lt_toLex]
          linarith
      | negative =>
        cases s' with
        | positive =>
          simp [rank, Sign.apply, Prod.Lex.toLex_lt_toLex]
          linarith
        | negative =>
          simp [rank, Sign.apply, Prod.Lex.toLex_lt_toLex, hlex']
          omega

/-- A double without sign is not below zero. -/
theorem Unsigned.not_lt_zero {x : Float} (hx : Unsigned x) : ¬ x < 0 := by
  have hzero : (0 : Float).toModel.unpack = .zero .positive := by rfl
  unfold Unsigned at hx
  have hnan : x.isNaN = false := by
    change x.toModel.unpack.isNaN = false
    cases hunpack : x.toModel.unpack with
    | notANumber => rw [hunpack] at hx; cases hx
    | _ => rfl
  rw [lt_iff_rank hnan (by decide), hzero]
  cases hunpack : x.toModel.unpack with
  | notANumber => rw [hunpack] at hx; cases hx
  | _ =>
    rw [hunpack] at hx
    subst hx
    simp [rank, Prod.Lex.toLex_lt_toLex]

/-- A natural number as a double is not below zero. -/
theorem not_ofNat_lt_zero (n : ℕ) : ¬ Float.ofNat n < 0 := by
  have hunsigned : Unsigned (Float.ofNat n) := by
    rw [ofNat_eq_toDouble]
    exact unsigned_toDouble (Nat.cast_nonneg n)
  exact hunsigned.not_lt_zero

/-- A canonical pair with a minus sign makes a negative double, which is minus infinity if the pair
is too large. -/
theorem lt_zero_of_canonical {m : ℕ} {e : ℤ} (h : Canonical m e) :
    Float.ofModel (Float.Model.pack (.finite .negative m e h.pos)) < 0 := by
  rcases le_or_gt e 971 with he | he
  · have hvalue : value? (.ofModel (Float.Model.pack (.finite .negative m e h.pos))) =
        some (Sign.negative.apply m * 2 ^ e : ℚ) := by
      change unpackedValue? (Float.Model.pack _).unpack = _
      rw [unpack_pack h he]
      rfl
    have hpos : (0 : ℚ) < m * 2 ^ e := mul_pos (by exact_mod_cast h.pos) (by positivity)
    apply (lt_iff_value hvalue value?_zero).mpr
    simp only [Sign.apply, Int.cast_neg, Int.cast_natCast, neg_mul]
    linarith
  · rw [pack_of_large h.pos he]
    decide

/-- Rounding does not depend on the sign. -/
theorem round_negative (m : ℕ) (e : ℤ) : UnpackedFloat.round Format.binary64 .negative m e =
    (UnpackedFloat.round Format.binary64 .positive m e).neg := by
  simp only [UnpackedFloat.round, roundWithAccuracy]
  split <;> rfl

/-- An exact value stays as it is when it is rounded, with either sign. -/
theorem value?_round {m : ℕ} {e : ℤ} (hm : 0 < m) (h : Exact (m * 2 ^ e)) (s : Sign) :
    value? (.ofModel (Float.Model.pack (UnpackedFloat.round Format.binary64 s m e))) =
      some (s.apply m * 2 ^ e : ℚ) := by
  cases s with
  | positive =>
    rw [round_eq_nearest hm]
    exact value?_toDouble h
  | negative =>
    have hneg : Float.ofModel (Float.Model.pack (nearest (m * 2 ^ e)).neg) =
        -toDouble (m * 2 ^ e) := by
      obtain ⟨n, f, hc, -, hf, hvalue⟩ := h
      change _ = Float.ofModel (Float.Model.pack (Float.Model.pack (nearest _)).unpack.neg)
      rw [← hvalue, nearest_of_canonical hc, unpack_pack hc hf]
    rw [round_negative, round_eq_nearest hm, hneg, value?_neg (value?_toDouble h)]
    simp [Sign.apply]

/-- An integer times a power of two that a double has becomes that double. -/
theorem value?_normalize {k e : ℤ} (h : k ≠ 0 → Exact (k.natAbs * 2 ^ e)) (zeroSign : Sign) :
    value? (.ofModel (Float.Model.pack (UnpackedFloat.normalize Format.binary64 k e zeroSign))) =
      some (k * 2 ^ e : ℚ) := by
  rcases lt_trichotomy k 0 with hk | rfl | hk
  · have hcompare : compare k 0 = .lt := Int.compare_eq_lt.mpr hk
    have habs : (-k).toNat = k.natAbs := by omega
    have hsign : Sign.negative.apply k.natAbs = k := by
      simp only [Sign.apply]
      omega
    rw [UnpackedFloat.normalize, hcompare]
    simp only [habs]
    rw [value?_round (by omega) (h hk.ne), hsign]
  · have hcompare : compare (0 : ℤ) 0 = .eq := by decide
    rw [UnpackedFloat.normalize, hcompare, Int.cast_zero, zero_mul]
    exact value?_signedZero zeroSign
  · have hcompare : compare k 0 = .gt := Int.compare_eq_gt.mpr hk
    have habs : k.toNat = k.natAbs := by omega
    have hsign : Sign.positive.apply k.natAbs = k := by
      simp only [Sign.apply]
      omega
    rw [UnpackedFloat.normalize, hcompare]
    simp only [habs]
    rw [value?_round (by omega) (h hk.ne'), hsign]

/-- A value of at least one is not rounded to zero. -/
theorem nearest_of_one_le {q : ℚ} (h : 1 ≤ q) :
    ∃ (m : ℕ) (e : ℤ) (hc : Canonical m e), nearest q = .finite .positive m e hc.pos := by
  rcases nearest_cases (by linarith : 0 < q) with hzero | hfinite
  · exfalso
    have hlog : 0 ≤ Int.log 2 q := (Int.zpow_le_iff_le_log (by decide) (by linarith)).mp (by simpa)
    have hbits := (halfEven_normal (by linarith : 0 < q)).resolve_right (by unfold spacing; omega)
    have hne : halfEven (q / 2 ^ spacing q) ≠ 0 := by omega
    simp only [nearest, hne, dif_neg, not_false_eq_true] at hzero
    split_ifs at hzero
  · exact hfinite

/-- A value of at most minus one becomes a double below zero. -/
theorem normalize_lt_zero {k e : ℤ} (h : (k * 2 ^ e : ℚ) ≤ -1) (zeroSign : Sign) :
    Float.ofModel
      (Float.Model.pack (UnpackedFloat.normalize Format.binary64 k e zeroSign)) < 0 := by
  have hk : k < 0 := by
    by_contra hk
    have hnonneg : (0 : ℚ) ≤ k * 2 ^ e :=
      mul_nonneg (by exact_mod_cast not_lt.mp hk) (by positivity)
    linarith
  have hcompare : compare k 0 = .lt := Int.compare_eq_lt.mpr hk
  have habs : (((-k).toNat : ℕ) : ℚ) = -k := by
    exact_mod_cast Int.toNat_of_nonneg (by omega : 0 ≤ -k)
  have hone : (1 : ℚ) ≤ (-k).toNat * 2 ^ e := by
    rw [habs]
    linarith
  obtain ⟨m, f, hc, hnearest⟩ := nearest_of_one_le hone
  rw [UnpackedFloat.normalize, hcompare]
  simp only [round_negative, round_eq_nearest (by omega : 0 < (-k).toNat), hnearest]
  exact lt_zero_of_canonical hc

/-- A mantissa counted in a smaller unit. -/
theorem apply_shiftLeft (s : Sign) (m : ℕ) {e t : ℤ} (ht : t ≤ e) :
    (s.apply (m <<< (e - t).toNat : ℕ) * 2 ^ t : ℚ) = s.apply m * 2 ^ e := by
  have hshift : ((m <<< (e - t).toNat : ℕ) : ℚ) * 2 ^ t = m * 2 ^ e := by
    rw [Nat.shiftLeft_eq, Nat.cast_mul, Nat.cast_pow, Nat.cast_ofNat, mul_assoc, ← zpow_natCast,
      ← zpow_add₀ (by norm_num)]
    congr 2
    omega
  cases s with
  | positive => simpa only [Sign.apply, Int.cast_natCast] using hshift
  | negative =>
    simpa only [Sign.apply, Int.cast_neg, Int.cast_natCast, neg_mul, neg_inj] using hshift

/-- A sum of finite doubles has the sum of their values, or is rounded from it. -/
theorem add_cases {x y : Float} {q r : ℚ} (hx : value? x = some q) (hy : value? y = some r) :
    value? (x + y) = some (q + r) ∨ ∃ k e : ℤ, (k * 2 ^ e : ℚ) = q + r ∧
      x + y = .ofModel (Float.Model.pack
        (UnpackedFloat.normalize Format.binary64 k e .positive)) := by
  have hadd : x + y = .ofModel (Float.Model.pack
    (UnpackedFloat.add Format.binary64 x.toModel.unpack y.toModel.unpack)) := rfl
  rcases unpack_of_value? hx with ⟨s, hx', rfl⟩ | ⟨s, m, e, hm, hx', rfl⟩
  · left
    rcases unpack_of_value? hy with ⟨s', hy', rfl⟩ | ⟨s', n, f, hn, hy', -⟩
    · rw [hadd, hx', hy', add_zero, UnpackedFloat.add]
      split <;> exact value?_signedZero _
    · have hsum : UnpackedFloat.add Format.binary64 x.toModel.unpack y.toModel.unpack =
          y.toModel.unpack := by rw [hx', hy']; rfl
      rw [hadd, hsum, pack_unpack_model, hy, zero_add]
  · rcases unpack_of_value? hy with ⟨s', hy', rfl⟩ | ⟨s', n, f, hn, hy', rfl⟩
    · left
      have hsum : UnpackedFloat.add Format.binary64 x.toModel.unpack y.toModel.unpack =
          x.toModel.unpack := by rw [hx', hy']; rfl
      rw [hadd, hsum, pack_unpack_model, hx, add_zero]
    · right
      rw [hadd, hx', hy']
      refine ⟨_, _, ?_, rfl⟩
      rw [Int.cast_add, add_mul, apply_shiftLeft _ _ (min_le_left e f),
        apply_shiftLeft _ _ (min_le_right e f)]

/-- A sum that doubles have is not rounded. -/
theorem value?_add {x y : Float} {q r : ℚ} (hx : value? x = some q) (hy : value? y = some r)
    (h : q + r ≠ 0 → Exact |q + r|) : value? (x + y) = some (q + r) := by
  rcases add_cases hx hy with hsum | ⟨k, e, hvalue, hsum⟩
  · exact hsum
  · rw [hsum, ← hvalue]
    apply value?_normalize
    intro hk
    have hunit : (0 : ℚ) < 2 ^ e := by positivity
    rw [← hvalue] at h
    have hexact := h (mul_ne_zero (by exact_mod_cast hk) hunit.ne')
    rwa [abs_mul, abs_of_pos hunit, ← Int.cast_abs, ← Int.natCast_natAbs,
      Int.cast_natCast] at hexact

/-- A sum that is a whole number up to `2 ^ 53` is not rounded. -/
theorem value?_add_natCast {x y : Float} {q r : ℚ} {n : ℕ} (hx : value? x = some q)
    (hy : value? y = some r) (hn : q + r = n) (hle : n ≤ 2 ^ 53) :
    value? (x + y) = some (n : ℚ) := by
  rw [← hn]
  apply value?_add hx hy
  rw [hn]
  intro hne
  rw [Nat.abs_cast]
  exact exact_natCast (Nat.pos_of_ne_zero (by exact_mod_cast hne)) hle

/-- A sum of finite doubles is negative if the sum of their values is at most minus one. -/
theorem add_lt_zero {x y : Float} {q r : ℚ} (hx : value? x = some q) (hy : value? y = some r)
    (h : q + r ≤ -1) : x + y < 0 := by
  rcases add_cases hx hy with hsum | ⟨k, e, hvalue, hsum⟩
  · apply (lt_iff_value hsum value?_zero).mpr
    linarith
  · rw [hsum]
    exact normalize_lt_zero (hvalue ▸ h) .positive

/-- A negative power of two is a division. -/
theorem mul_zpow_eq_div (k : ℚ) {e : ℤ} (he : e < 0) :
    k * 2 ^ e = k / ((2 ^ (-e).toNat : ℕ) : ℚ) := by
  rw [Nat.cast_pow, Nat.cast_ofNat, ← zpow_natCast, Int.toNat_of_nonneg (by omega), zpow_neg,
    div_inv_eq_mul]

/-- A negative quotient that is no integer is rounded down to one below the opposite of the quotient
rounded down. -/
theorem floor_neg_div {m d : ℕ} (hd : 0 < d) (hmod : m % d ≠ 0) :
    ⌊(-(m : ℚ) / d)⌋ = -((m / d + 1 : ℕ) : ℤ) := by
  have hd' : (0 : ℚ) < d := by exact_mod_cast hd
  have hsplit : (m : ℚ) = d * (m / d : ℕ) + (m % d : ℕ) := by
    exact_mod_cast (Nat.div_add_mod m d).symm
  have hlow : (0 : ℚ) < (m % d : ℕ) := by exact_mod_cast Nat.pos_of_ne_zero hmod
  have hhigh : ((m % d : ℕ) : ℚ) ≤ d := by exact_mod_cast (Nat.mod_lt m hd).le
  rw [Int.floor_eq_iff, le_div_iff₀ hd', div_lt_iff₀ hd', Int.cast_neg, Int.cast_natCast,
    Nat.cast_succ]
  constructor <;> linarith

/-- Rounding down gives the greatest integer that is at most the value. -/
theorem value?_floor {x : Float} {q : ℚ} (h : value? x = some q) :
    value? (Number.floor x) = some (⌊q⌋ : ℚ) := by
  rcases unpack_of_value? h with ⟨s, hx, rfl⟩ | ⟨s, m, e, hm, hx, rfl⟩
  · simpa [Number.floor, hx] using h
  · rcases le_or_gt 0 e with he | he
    · have hwhole : (s.apply m * 2 ^ e : ℚ) = ((s.apply m * 2 ^ e.toNat : ℤ) : ℚ) := by
        push_cast
        rw [← zpow_natCast, Int.toNat_of_nonneg he]
      have hfloor : Number.floor x = x := by cases s <;> simp [Number.floor, hx, he]
      rw [hfloor, h, hwhole, Int.floor_intCast]
    · have hbits := (canonical_of_unpack hx).lt
      have hle : m / 2 ^ (-e).toNat ≤ m := Nat.div_le_self ..
      have hpow : 0 < 2 ^ (-e).toNat := by positivity
      cases s with
      | positive =>
        have hfloor : Number.floor x = Float.ofNat (m / 2 ^ (-e).toNat) := by
          simp [Number.floor, hx, he]
        rw [hfloor, value?_ofNat (by omega), mul_zpow_eq_div _ he]
        simp only [Sign.apply, Rat.floor_intCast_div_natCast]
        norm_cast
      | negative =>
        by_cases hmod : m % 2 ^ (-e).toNat = 0
        · have hfloor : Number.floor x = x := by simp [Number.floor, hx, hmod]
          have hwhole : (Sign.negative.apply m * 2 ^ e : ℚ) =
              ((-(m / 2 ^ (-e).toNat : ℕ) : ℤ) : ℚ) := by
            rw [mul_zpow_eq_div _ he]
            simp only [Sign.apply, Int.cast_neg, Int.cast_natCast, neg_div]
            rw [Nat.cast_div (Nat.dvd_of_mod_eq_zero hmod) (by positivity)]
          rw [hfloor, h, hwhole, Int.floor_intCast]
        · have hfloor : Number.floor x = -Float.ofNat (m / 2 ^ (-e).toNat + 1) := by
            simp [Number.floor, hx, he, hmod]
          rw [hfloor, value?_neg (value?_ofNat (by omega)), mul_zpow_eq_div _ he]
          simp only [Sign.apply, Int.cast_neg, Int.cast_natCast, floor_neg_div hpow hmod]

/-- Rounding up gives the least integer that is at least the value. -/
theorem value?_ceil {x : Float} {q : ℚ} (h : value? x = some q) :
    value? (Number.ceil x) = some (⌈q⌉ : ℚ) := by
  rw [Number.ceil, value?_neg (value?_floor (value?_neg h)), Int.floor_neg, Int.cast_neg, neg_neg]

end TinyScript.Binary64
