import TinyScript.Number.Format
import TinyScript.Proofs.Packing

/-!
# Decimals as doubles

A decimal is read as the double nearest to its value, so decimals of one value are read alike. The
digits chosen for a double were tried before they were chosen, and the exact digits, which are used
if no others fit, have the value of the double itself. Hence the shortest decimal of a double is
read as that double again.
-/

namespace TinyScript

open Float.Model Float.Model.UnpackedFloat

namespace Binary64

/-- A value that doubles have exactly, with all bits of the mantissa in use. -/
def Exact (q : ℚ) : Prop :=
  ∃ (m : ℕ) (e : ℤ), Canonical m e ∧ 2 ^ 52 ≤ m ∧ e ≤ 971 ∧ (m * 2 ^ e : ℚ) = q

/-- A short mantissa in a moderate unit is exact. -/
theorem exact_of_lt {n : ℕ} {j : ℤ} (hn : 0 < n) (hlt : n < 2 ^ 53) (hlow : -1022 ≤ j)
    (hhigh : j ≤ 971) : Exact (n * 2 ^ j) := by
  have hlog : n.log2 < 53 := (Nat.log2_lt hn.ne').mpr hlt
  have hmin : 2 ^ 52 ≤ n * 2 ^ (52 - n.log2) := by
    calc 2 ^ 52 = 2 ^ n.log2 * 2 ^ (52 - n.log2) := by
          rw [← pow_add]
          congr 1
          omega
      _ ≤ n * 2 ^ (52 - n.log2) := Nat.mul_le_mul_right _ (Nat.log2_self_le hn.ne')
  have hmax : n * 2 ^ (52 - n.log2) < 2 ^ 53 := by
    calc n * 2 ^ (52 - n.log2) < 2 ^ (n.log2 + 1) * 2 ^ (52 - n.log2) :=
          Nat.mul_lt_mul_of_pos_right Nat.lt_log2_self (by positivity)
      _ = 2 ^ 53 := by
          rw [← pow_add]
          congr 1
          omega
  refine ⟨n * 2 ^ (52 - n.log2), j - (52 - n.log2 : ℕ), ⟨by omega, hmax, by omega, Or.inl hmin⟩,
    hmin, by omega, ?_⟩
  rw [Nat.cast_mul, Nat.cast_pow, Nat.cast_ofNat, ← zpow_natCast, mul_assoc,
    ← zpow_add₀ (by norm_num)]
  congr 2
  ring

/-- The double of an exact value has that value. -/
theorem Exact.unpack_toDouble {q : ℚ} (h : Exact q) : ∃ (m : ℕ) (e : ℤ) (hm : 0 < m),
    2 ^ 52 ≤ m ∧ (m * 2 ^ e : ℚ) = q ∧ (toDouble q).toModel.unpack = .finite .positive m e hm := by
  obtain ⟨m, e, hc, hlow, he, rfl⟩ := h
  refine ⟨m, e, hc.pos, hlow, rfl, ?_⟩
  rw [toDouble, nearest_of_canonical hc]
  exact unpack_pack hc he

/-- The product of the doubles of exact values is the double nearest to the product. -/
theorem toDouble_mul {q r : ℚ} (hq : Exact q) (hr : Exact r) :
    toDouble q * toDouble r = toDouble (q * r) := by
  obtain ⟨m, e, hm, hlow, rfl, hq⟩ := hq.unpack_toDouble
  obtain ⟨n, k, hn, -, rfl, hr⟩ := hr.unpack_toDouble
  have hbits : 2 ^ 52 ≤ m * n := le_trans hlow (Nat.le_mul_of_pos_right m hn)
  change Float.ofModel (Float.Model.pack (UnpackedFloat.mul Format.binary64 _ _)) = _
  rw [hq, hr, mul_eq_nearest hm hn hbits]
  rfl

/-- The quotient of the doubles of exact values is the double nearest to the quotient. -/
theorem toDouble_div {q r : ℚ} (hq : Exact q) (hr : Exact r) :
    toDouble q / toDouble r = toDouble (q / r) := by
  obtain ⟨m, e, hm, -, rfl, hq⟩ := hq.unpack_toDouble
  obtain ⟨n, k, hn, -, rfl, hr⟩ := hr.unpack_toDouble
  change Float.ofModel (Float.Model.pack (UnpackedFloat.div Format.binary64 _ _)) = _
  rw [hq, hr, div_eq_nearest hm hn]
  rfl

/-- The double nearest to nothing, taken apart. -/
theorem unpack_toDouble_zero : (toDouble 0).toModel.unpack = .zero .positive := by
  rw [toDouble, nearest_zero]
  rfl

/-- Nothing times an exact value is nothing. -/
theorem toDouble_zero_mul {r : ℚ} (hr : Exact r) : toDouble 0 * toDouble r = toDouble 0 := by
  obtain ⟨n, k, hn, -, -, hr⟩ := hr.unpack_toDouble
  change Float.ofModel (Float.Model.pack (UnpackedFloat.mul Format.binary64 _ _)) = _
  rw [unpack_toDouble_zero, hr, toDouble, nearest_zero]
  rfl

/-- Nothing divided by an exact value is nothing. -/
theorem toDouble_zero_div {r : ℚ} (hr : Exact r) : toDouble 0 / toDouble r = toDouble 0 := by
  obtain ⟨n, k, hn, -, -, hr⟩ := hr.unpack_toDouble
  change Float.ofModel (Float.Model.pack (UnpackedFloat.div Format.binary64 _ _)) = _
  rw [unpack_toDouble_zero, hr, toDouble, nearest_zero]
  rfl

/-- A machine integer becomes the double nearest to it. -/
theorem toFloat_eq_toDouble (n : UInt64) : n.toFloat = toDouble n.toNat := by
  change Float.ofModel (Float.Model.pack
    (UnpackedFloat.normalize Format.binary64 n.toNat 0 .positive)) = _
  rcases Nat.eq_zero_or_pos n.toNat with hn | hn
  · rw [hn, toDouble, Nat.cast_zero (R := ℚ), nearest_zero]
    rfl
  · have hcompare : compare (n.toNat : ℤ) 0 = .gt := Int.compare_eq_gt.mpr (by omega)
    rw [UnpackedFloat.normalize, hcompare]
    simp only [Int.toNat_natCast, round_eq_nearest hn, zpow_zero, mul_one]
    rfl

/-- The powers of ten in the table are the doubles of these powers. -/
theorem powersOfTen_eq (k : Fin 23) : Float.exactlyRepresentablePowersOfTen[k] =
    toDouble (10 ^ (k : ℕ)) := by
  have htable : ∀ k : Fin 23, Float.exactlyRepresentablePowersOfTen[k] =
      Float.ofModel (Float.Model.pack
        (UnpackedFloat.round Format.binary64 .positive (10 ^ (k : ℕ)) 0)) := by
    decide +kernel
  rw [htable, round_eq_nearest (by positivity), zpow_zero, mul_one]
  norm_cast

/-- Small powers of ten are exact. -/
theorem exact_powerOfTen {k : ℕ} (hk : k ≤ 22) : Exact (10 ^ k) := by
  have hlt : 5 ^ k < 2 ^ 53 := lt_of_le_of_lt (Nat.pow_le_pow_right (by decide) hk) (by decide)
  have hvalue : (10 ^ k : ℚ) = (5 ^ k : ℕ) * 2 ^ (k : ℤ) := by
    rw [zpow_natCast, Nat.cast_pow, ← mul_pow]
    norm_num
  rw [hvalue]
  exact exact_of_lt (by positivity) hlt (by omega) (by omega)

/-- A decimal with a very large exponent is too large for doubles. -/
theorem large_of_exponent {m : ℕ} {e : ℤ} (hm : m ≠ 0) (he : 1024 ≤ e) :
    (2 : ℚ) ^ (1024 : ℤ) ≤ m * 10 ^ e := by
  have hone : (1 : ℚ) ≤ m := by exact_mod_cast Nat.one_le_iff_ne_zero.mpr hm
  calc (2 : ℚ) ^ (1024 : ℤ) ≤ 2 ^ e := zpow_le_zpow_right₀ (by norm_num) he
    _ ≤ 10 ^ e := zpow_le_zpow_left₀ (by omega) (by norm_num) (by norm_num)
    _ ≤ m * 10 ^ e := le_mul_of_one_le_left (by positivity) hone

/-- A decimal with a very small exponent is too small for doubles. -/
theorem small_of_exponent {m : ℕ} {e : ℤ} (he : e < -(2048 + m.log2)) :
    (m * 10 ^ e : ℚ) < 2 ^ (-1075 : ℤ) := by
  have hpower : (10 : ℚ) ^ e ≤ 2 ^ e := by
    obtain ⟨k, rfl⟩ : ∃ k : ℕ, e = -k := ⟨(-e).toNat, by omega⟩
    rw [zpow_neg, zpow_neg, zpow_natCast, zpow_natCast]
    gcongr
    norm_num
  calc (m * 10 ^ e : ℚ) ≤ m * 2 ^ e := by gcongr
    _ < 2 ^ (m.log2 + 1) * 2 ^ e := by
        gcongr
        exact_mod_cast Nat.lt_log2_self
    _ = 2 ^ ((m.log2 : ℤ) + 1 + e) := by
        rw [zpow_add₀ (by norm_num), ← zpow_natCast]
        norm_cast
    _ ≤ 2 ^ (-1075 : ℤ) := zpow_le_zpow_right₀ (by norm_num) (by omega)

/-- The general way of reading a decimal gives the double nearest to its value. -/
theorem ofScientific_model_eq (m : ℕ) (e : ℤ) :
    Float.Model.ofScientific m e = Float.Model.pack (nearest (m * 10 ^ e)) := by
  have hbits : Format.binary64.mantissaBits = 53 := rfl
  rw [Float.Model.ofScientific, UnpackedFloat.ofScientific]
  split_ifs with hzero hlarge hsmall hsign
  · simp [hzero]
  · rw [pack_nearest_of_large (large_of_exponent hzero (by norm_num at hlarge; omega))]
  · have hpos : (0 : ℚ) < m := by exact_mod_cast Nat.pos_of_ne_zero hzero
    rw [nearest_of_small (by positivity) (small_of_exponent (by norm_num at hsmall; omega))]
  · congr 1
    have hpos : 0 < m := Nat.pos_of_ne_zero hzero
    rw [mul_eq_nearest]
    · congr 1
      have hpower : (10 : ℚ) ^ e = 10 ^ e.toNat := by
        rw [← zpow_natCast, Int.toNat_of_nonneg hsign]
      rw [hbits, Nat.shiftLeft_eq, hpower]
      push_cast
      rw [zpow_neg]
      norm_num
      ring
    · rw [hbits, Nat.shiftLeft_eq]
      calc 2 ^ 52 ≤ 1 * 2 ^ 53 * 1 := by norm_num
        _ ≤ m * 2 ^ 53 * 10 ^ e.toNat := by
            gcongr
            · exact hpos
            · exact Nat.one_le_pow _ _ (by decide)
  · congr 1
    rw [div_eq_nearest]
    congr 1
    have hpower : (10 : ℚ) ^ e = (10 ^ (-e).toNat)⁻¹ := by
      rw [← zpow_natCast, ← zpow_neg, Int.toNat_of_nonneg (by omega), neg_neg]
    rw [hpower]
    push_cast
    rw [mul_one, mul_one, div_eq_mul_inv]

/-- Reading a decimal, in the fast way or the general one, gives the double nearest to its value. -/
theorem ofScientific_eq (m : ℕ) (negative : Bool) (e : ℕ) :
    Float.ofScientific m negative e =
      toDouble (m * 10 ^ (if negative then -(e : ℤ) else e)) := by
  rw [Float.ofScientific]
  by_cases hfast : m < 2 ^ 53 ∧ e ≤ 22
  · have hpower := powersOfTen_eq ⟨e, by omega⟩
    have hexact := exact_powerOfTen hfast.2
    have hm : m.toUInt64.toNat = m := Nat.mod_eq_of_lt (by omega)
    have hnumber : m.toUInt64.toFloat = toDouble m := by rw [toFloat_eq_toDouble, hm]
    simp only [Fin.getElem_fin] at hpower
    simp only [dif_pos hfast, hpower, hnumber]
    rcases Nat.eq_zero_or_pos m with rfl | hpos
    · simp only [Nat.cast_zero, zero_mul, toDouble_zero_mul hexact, toDouble_zero_div hexact,
        ite_self]
    · have hexact' : Exact m := by
        simpa using exact_of_lt hpos hfast.1 (by decide : (-1022 : ℤ) ≤ 0) (by decide)
      cases negative
      · simp only [Bool.false_eq_true, if_false, toDouble_mul hexact' hexact, zpow_natCast]
      · simp only [if_true, toDouble_div hexact' hexact, zpow_neg, zpow_natCast, div_eq_mul_inv]
  · simp only [dif_neg hfast, ofScientific_model_eq]
    cases negative
    · rfl
    · simp only [if_true, Int.negOfNat_eq]
      rfl

end Binary64

namespace Decimal

open Binary64

/-- The value of a decimal. -/
def value (d : Decimal) : ℚ := d.coefficient * 10 ^ d.exponent

/-- A decimal is read as the double nearest to its value. -/
theorem toFloat_eq_toDouble (d : Decimal) : d.toFloat = toDouble d.value := by
  unfold toFloat value
  split_ifs with hneg
  · change Float.ofScientific _ _ _ = _
    rw [ofScientific_eq]
    congr 3
    simp only [if_true]
    omega
  · change Float.ofScientific _ _ _ = _
    rw [ofScientific_eq]
    congr 3
    simp only [Bool.false_eq_true, if_false]
    omega

/-- Values of decimals are not negative. -/
theorem value_nonneg (d : Decimal) : 0 ≤ d.value := by
  unfold value
  positivity

/-- Taking off trailing zeros keeps the value. -/
theorem value_trim (n : ℕ) (d : Decimal) : (d.trim n).value = d.value := by
  induction n generalizing d with
  | zero => rfl
  | succ n ih =>
    rw [trim]
    split_ifs with h
    · rw [ih]
      have hdiv : (d.coefficient : ℚ) = 10 * (d.coefficient / 10 : ℕ) := by
        exact_mod_cast (Nat.mul_div_cancel' (Nat.dvd_of_mod_eq_zero h.2)).symm
      simp only [value]
      rw [hdiv, zpow_add_one₀ (by norm_num)]
      ring
    · rfl

/-- The exact decimal of a mantissa and an exponent has their value. -/
theorem value_ofBinary (m : ℕ) (e : ℤ) : (ofBinary m e).value = m * 2 ^ e := by
  unfold ofBinary value
  split_ifs with h
  · have hpower : (2 : ℚ) ^ e = 2 ^ e.toNat := by
      rw [← zpow_natCast, Int.toNat_of_nonneg h]
    simp [hpower]
  · obtain ⟨k, rfl⟩ : ∃ k : ℕ, e = -k := ⟨(-e).toNat, by omega⟩
    have hpower : (10 : ℚ) ^ k = 2 ^ k * 5 ^ k := by
      rw [← mul_pow]
      norm_num
    simp only [neg_neg, Int.toNat_natCast, Nat.pow_eq, Nat.cast_mul, Nat.cast_pow, Nat.cast_ofNat,
      zpow_neg, zpow_natCast, hpower]
    field_simp

/-- What is read of any decimal has no sign and is no NaN. -/
theorem unsigned_toFloat (d : Decimal) : Unsigned d.toFloat := by
  rw [toFloat_eq_toDouble]
  exact unsigned_toDouble d.value_nonneg

/-- Decimals with a given number of digits are chosen only if they read back. -/
theorem toFloat_of_withDigits? {x : Float} {f : Fraction} {n : ℕ} {d : Decimal}
    (h : withDigits? x f n = some d) : (d.toFloat == x) = true := by
  simp only [withDigits?, ite_eq_iff, Option.some.injEq] at h
  rcases h with ⟨hbest, rfl⟩ | ⟨-, ⟨hother, rfl⟩ | ⟨-, hnone⟩⟩
  · exact hbest
  · exact hother
  · contradiction

/-- The shortest decimal of a finite double without sign is read as that double. -/
theorem toFloat_shortest {x : Float} (hx : Unsigned x) (hfin : x.isInf = false) :
    (shortest x).toFloat = x := by
  have habs := hx.abs_eq
  rw [shortest, habs]
  cases hsmall : small? x with
  | some n =>
    simp only [small?, habs] at hsmall
    split_ifs at hsmall with h
    obtain rfl := Option.some.inj hsmall
    simp only [Bool.and_eq_true] at h
    rw [toFloat_eq_toDouble, value_trim]
    have hvalue : (⟨x.toUInt64.toNat, 0⟩ : Decimal).value = x.toUInt64.toNat := by simp [value]
    rw [hvalue, ← Binary64.toFloat_eq_toDouble]
    refine Unsigned.eq_of_beq ?_ hx h.2
    rw [Binary64.toFloat_eq_toDouble]
    exact unsigned_toDouble (Nat.cast_nonneg _)
  | none =>
    dsimp only
    split
    · rename_i sign m e hpos hunpack
      have hsign : sign = .positive := by simpa [Unsigned, hunpack] using hx
      subst hsign
      rw [toFloat_eq_toDouble, value_trim, ← toFloat_eq_toDouble]
      cases hdigits : (List.range' 1 17).findSome? (withDigits? x (Fraction.ofBinary m e)) with
      | none =>
        rw [Option.getD_none, toFloat_eq_toDouble, value_ofBinary]
        exact toDouble_of_unpack hunpack
      | some d =>
        obtain ⟨n, -, hn⟩ := List.exists_of_findSome?_eq_some hdigits
        exact Unsigned.eq_of_beq (unsigned_toFloat d) hx (toFloat_of_withDigits? hn)
    · rename_i hnotFinite
      have hzero : x.toModel.unpack = .zero .positive := by
        change x.toModel.unpack.isInf = false at hfin
        unfold Unsigned at hx
        cases hunpack : x.toModel.unpack with
        | infinity sign => simp [hunpack, UnpackedFloat.isInf] at hfin
        | notANumber => simp [hunpack] at hx
        | zero sign => simpa [hunpack] using hx
        | finite sign m e hpos => exact (hnotFinite sign m e hpos hunpack).elim
      apply eq_of_unpack_eq
      rw [hzero, toFloat_eq_toDouble]
      simpa [value] using unpack_toDouble_zero

end Decimal

end TinyScript
