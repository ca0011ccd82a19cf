import Mathlib

/-!
# The double nearest to a value

Products and quotients of doubles are cut to their leading bits, with two bits that tell what was
cut off, and then rounded. Here the same result is a function of the exact value alone: the multiple
of the spacing of doubles around the value that is nearest to it, ties going to the even one. So two
computations that stand for one value give one double, however they arrive at it.

Only values that are not negative are looked at, since no literal has a sign.
-/

namespace TinyScript.Binary64

open Float.Model Float.Model.UnpackedFloat

/-- The natural number nearest to a value, ties going to the even one. -/
def halfEven (x : ℚ) : ℕ :=
  if x - ⌊x⌋₊ < 1 / 2 then ⌊x⌋₊
  else if x - ⌊x⌋₊ = 1 / 2 then ⌊x⌋₊ + ⌊x⌋₊ % 2
  else ⌊x⌋₊ + 1

/-- The exponent of the spacing of doubles around a value. -/
def spacing (q : ℚ) : ℤ := max (Int.log 2 q - 52) (-1074)

/-- The double nearest to a value, before it is looked at for overflow. -/
def nearest (q : ℚ) : UnpackedFloat :=
  let m := halfEven (q / 2 ^ spacing q)
  if h : m = 0 then .zero .positive
  else if m < 2 ^ 53 then .finite .positive m (spacing q) (Nat.pos_of_ne_zero h)
  else .finite .positive (2 ^ 52) (spacing q + 1) (by decide)

/-- What a round bit and a sticky bit say about the part that was cut off. -/
def Leaves : Bool → Bool → ℚ → Prop
  | false, false, f => f = 0
  | false, true, f => 0 < f ∧ f < 1 / 2
  | true, false, f => f = 1 / 2
  | true, true, f => 1 / 2 < f ∧ f < 1

/-- A mantissa and its residual bits stand for a value. -/
def Holds (em : ExtendedMantissa) (x : ℚ) : Prop :=
  Leaves em.roundBit em.stickyBit (x - em.mantissa)

/-- What is cut off is less than one. -/
theorem Leaves.bounds {r s : Bool} {f : ℚ} (h : Leaves r s f) : 0 ≤ f ∧ f < 1 := by
  cases r <;> cases s <;> simp only [Leaves] at h <;> constructor <;> linarith

/-- One more bit cut off: it is the new round bit, and the old bits only leave a trace. -/
theorem Leaves.half {r s : Bool} {f : ℚ} (h : Leaves r s f) {b : ℕ} (hb : b < 2) :
    Leaves (b != 0) (r || s) ((b + f) / 2) := by
  obtain rfl | rfl : b = 0 ∨ b = 1 := by omega
  · cases r <;> cases s <;> simp only [Leaves] at h <;> simp [Leaves] <;>
      first | linarith | constructor <;> linarith
  · cases r <;> cases s <;> simp only [Leaves] at h <;> simp [Leaves] <;>
      first | linarith | constructor <;> linarith

namespace Holds

variable {em : ExtendedMantissa} {x : ℚ}

/-- The mantissa is the integer part of the value. -/
theorem floor_eq (h : Holds em x) : ⌊x⌋₊ = em.mantissa := by
  obtain ⟨hlow, hhigh⟩ := Leaves.bounds h
  exact (Nat.floor_eq_iff (by linarith [em.mantissa.cast_nonneg (α := ℚ)])).mpr
    ⟨by linarith, by linarith⟩

/-- Shifting by one bit halves the value. -/
theorem shiftRightOne (h : Holds em x) : Holds em.shiftRightOne (x / 2) := by
  have hsplit : (em.mantissa : ℚ) = 2 * (em.mantissa / 2 : ℕ) + (em.mantissa % 2 : ℕ) := by
    exact_mod_cast (Nat.div_add_mod em.mantissa 2).symm
  have hhalf := Leaves.half h (Nat.mod_lt em.mantissa (by decide : 0 < 2))
  have hleft : x / 2 - (em.mantissa / 2 : ℕ) =
      ((em.mantissa % 2 : ℕ) + (x - em.mantissa)) / 2 := by linarith
  change Leaves (em.mantissa % 2 != 0) (em.roundBit || em.stickyBit)
    (x / 2 - (em.mantissa / 2 : ℕ))
  rw [hleft]
  exact hhalf

/-- Shifting divides the value by a power of two. -/
theorem shiftRight (h : Holds em x) (n : ℕ) : Holds (em >>> n) (x / 2 ^ n) := by
  induction n with
  | zero =>
    rw [pow_zero, div_one]
    exact h
  | succ n ih =>
    rw [pow_succ, ← div_div]
    exact ih.shiftRightOne

/-- Rounding by the residual bits is rounding the value. -/
theorem roundedMantissa_eq (h : Holds em x) : em.roundedMantissa = halfEven x := by
  have hfloor := h.floor_eq
  obtain ⟨m, r, s⟩ := em
  simp only [halfEven, hfloor]
  cases r <;> cases s <;> simp only [Holds, Leaves] at h
  · rw [if_pos (by linarith)]
    rfl
  · rw [if_pos h.2]
    rfl
  · rw [if_neg (by linarith), if_pos h]
    rfl
  · rw [if_neg (by linarith), if_neg (by linarith)]
    rfl

end Holds

/-- A value between two powers of two has the lower exponent as its logarithm. -/
theorem log_eq {q : ℚ} {k : ℤ} (hlow : 2 ^ k ≤ q) (hhigh : q < 2 ^ (k + 1)) : Int.log 2 q = k := by
  have hq : 0 < q := lt_of_lt_of_le (by positivity) hlow
  have h1 : k ≤ Int.log 2 q := (Int.zpow_le_iff_le_log (by decide) hq).mp (by exact_mod_cast hlow)
  have h2 : Int.log 2 q < k + 1 :=
    (Int.lt_zpow_iff_log_lt (by decide) hq).mp (by exact_mod_cast hhigh)
  omega

/-- The logarithm of a value whose integer part in some unit is known. -/
theorem log_eq_of_floor {q : ℚ} {m : ℕ} {e : ℤ} (hm : 0 < m) (hlow : m ≤ q / 2 ^ e)
    (hhigh : q / 2 ^ e < m + 1) : Int.log 2 q = m.log2 + e := by
  have hunit : (0 : ℚ) < 2 ^ e := by positivity
  apply log_eq
  · calc (2 : ℚ) ^ ((m.log2 : ℤ) + e) = 2 ^ m.log2 * 2 ^ e := by
          rw [zpow_add₀ (by norm_num), zpow_natCast]
      _ ≤ m * 2 ^ e := by
          gcongr
          exact_mod_cast Nat.log2_self_le (by omega)
      _ ≤ q := (le_div_iff₀ hunit).mp hlow
  · calc q < (m + 1) * 2 ^ e := (div_lt_iff₀ hunit).mp hhigh
      _ ≤ 2 ^ (m.log2 + 1) * 2 ^ e := by
          gcongr
          exact_mod_cast (Nat.lt_log2_self : m < 2 ^ (m.log2 + 1))
      _ = 2 ^ ((m.log2 : ℤ) + e + 1) := by
          rw [← zpow_natCast, ← zpow_add₀ (by norm_num)]
          congr 1
          push_cast
          ring

/-- A value is less than `2 ^ 53` units of the spacing around it. -/
theorem div_spacing_lt (q : ℚ) : q / 2 ^ spacing q < 2 ^ 53 := by
  have hunit : (0 : ℚ) < 2 ^ spacing q := by positivity
  rw [div_lt_iff₀ hunit]
  calc q < 2 ^ (Int.log 2 q + 1) := by exact_mod_cast Int.lt_zpow_succ_log_self (by decide) q
    _ ≤ 2 ^ (53 + spacing q) := by
        apply zpow_le_zpow_right₀ (by norm_num)
        unfold spacing
        omega
    _ = 2 ^ 53 * 2 ^ spacing q := by
        rw [zpow_add₀ (by norm_num)]
        norm_num

/-- Rounding moves a value at most up to the next integer. -/
theorem halfEven_le_floor_succ (x : ℚ) : halfEven x ≤ ⌊x⌋₊ + 1 := by
  unfold halfEven
  split_ifs <;> omega

/-- A natural number is rounded to itself. -/
@[simp] theorem halfEven_natCast (n : ℕ) : halfEven n = n := by simp [halfEven]

/-- The rounded mantissa of a value has at most one bit too many. -/
theorem halfEven_le {q : ℚ} (hq : 0 ≤ q) : halfEven (q / 2 ^ spacing q) ≤ 2 ^ 53 := by
  have hfloor : ⌊q / 2 ^ spacing q⌋₊ < 2 ^ 53 := by
    rw [Nat.floor_lt (by positivity)]
    exact_mod_cast div_spacing_lt q
  exact (halfEven_le_floor_succ _).trans hfloor

/-- The exponent that rounding aims at, in numbers. -/
theorem targetExponent_eq (m : ℕ) (e : ℤ) :
    Format.binary64.targetExponent (totalExponent m e) = max (m.log2 + e - 52) (-1074) := by
  simp only [Format.targetExponent, totalExponent, Format.mantissaBits, Format.minExponent]
  norm_num
  omega

/-- A mantissa that fits is left as it is. -/
theorem shiftToTargetExponent_of_lt {m : ℕ} {e : ℤ} (hm : m < 2 ^ 53) (he : -1074 ≤ e) :
    shiftToTargetExponent Format.binary64 m e .exact = (⟨m, false, false⟩, e) := by
  have hlog : m.log2 ≤ 52 := by
    by_cases hzero : m = 0
    · simp [hzero]
    · have := (Nat.log2_lt hzero).mpr hm
      omega
  have hshift : (Format.binary64.targetExponent (totalExponent m e) - e).toNat = 0 := by
    rw [targetExponent_eq]
    omega
  simp only [shiftToTargetExponent, shiftToExponent, hshift]
  exact Prod.ext rfl (by simp)

/-- A mantissa with one bit too many loses a zero. -/
theorem shiftToTargetExponent_overflow {e : ℤ} (he : -1074 ≤ e) :
    shiftToTargetExponent Format.binary64 (2 ^ 53) e .exact = (⟨2 ^ 52, false, false⟩, e + 1) := by
  have hshift : (Format.binary64.targetExponent (totalExponent (2 ^ 53) e) - e).toNat = 1 := by
    rw [targetExponent_eq, Nat.log2_two_pow]
    omega
  simp only [shiftToTargetExponent, shiftToExponent, hshift]
  exact Prod.ext rfl (by simp)

/-- Rounding a mantissa that stands for a value, in a unit that is not too large, gives the double
nearest to the value. -/
theorem roundWithAccuracy_eq_nearest {q : ℚ} {m : ℕ} {e : ℤ} {acc : Accuracy} (hq : 0 < q)
    (h : Holds (.ofMantissaAndAccuracy m acc) (q / 2 ^ e)) (he : e ≤ spacing q)
    (hm : m = 0 → e ≤ -1074) :
    roundWithAccuracy Format.binary64 .positive m e acc = nearest q := by
  have hmantissa : (ExtendedMantissa.ofMantissaAndAccuracy m acc).mantissa = m := by
    rcases acc with _ | (_ | _ | _) <;> rfl
  have htarget : Format.binary64.targetExponent (totalExponent m e) = spacing q := by
    rw [targetExponent_eq]
    obtain ⟨hlow, hhigh⟩ := Leaves.bounds h
    rw [hmantissa] at hlow hhigh
    by_cases hzero : m = 0
    · have hle := hm hzero
      have hlt : q < 2 ^ e := by
        rw [hzero, Nat.cast_zero, sub_zero, div_lt_one (by positivity)] at hhigh
        exact hhigh
      have hlog : Int.log 2 q < e :=
        (Int.lt_zpow_iff_log_lt (by decide) hq).mp (by exact_mod_cast hlt)
      simp only [hzero, Nat.log2_zero, spacing]
      omega
    · have hhigh' : q / 2 ^ e < m + 1 := by linarith
      rw [spacing, log_eq_of_floor (Nat.pos_of_ne_zero hzero) (sub_nonneg.mp hlow) hhigh']
  have hexp : e + ((spacing q - e).toNat : ℤ) = spacing q := by omega
  generalize hem : ExtendedMantissa.ofMantissaAndAccuracy m acc >>> (spacing q - e).toNat = em
  have hholds : Holds em (q / 2 ^ spacing q) := by
    have hpow : (2 : ℚ) ^ spacing q = 2 ^ e * 2 ^ (spacing q - e).toNat := by
      rw [← zpow_natCast, ← zpow_add₀ (by norm_num), hexp]
    rw [hpow, ← div_div, ← hem]
    exact h.shiftRight _
  have hfirst : shiftToTargetExponent Format.binary64 m e acc = (em, spacing q) := by
    rw [shiftToTargetExponent, htarget, shiftToExponent, hem, hexp]
  have hspacing : -1074 ≤ spacing q := le_max_right _ _
  rw [roundWithAccuracy, hfirst, nearest]
  dsimp only
  rw [hholds.roundedMantissa_eq]
  rcases (halfEven_le hq.le).lt_or_eq with hlt | heq
  · rw [shiftToTargetExponent_of_lt hlt hspacing]
    simp only [hlt, if_true]
  · rw [heq, shiftToTargetExponent_overflow hspacing]
    rfl

/-- An exact mantissa stands for its own value. -/
theorem holds_exact (m : ℕ) : Holds (.ofMantissaAndAccuracy m .exact) m := by
  change (m : ℚ) - m = 0
  ring

/-- An exact mantissa in a unit that is not too large is rounded to the double nearest to it. -/
theorem roundWithAccuracy_exact {m : ℕ} {e : ℤ} (hm : 0 < m) (he : e ≤ spacing (m * 2 ^ e)) :
    roundWithAccuracy Format.binary64 .positive m e .exact = nearest (m * 2 ^ e) := by
  refine roundWithAccuracy_eq_nearest (by positivity) ?_ he (fun h => by omega)
  rw [mul_div_cancel_right₀ _ (by positivity)]
  exact holds_exact m

/-- The spacing around a value that is given by a mantissa and an exponent. -/
theorem spacing_eq {m : ℕ} (hm : 0 < m) (e : ℤ) :
    spacing (m * 2 ^ e) = max (m.log2 + e - 52) (-1074) := by
  have hunit : (2 : ℚ) ^ e ≠ 0 := by positivity
  rw [spacing, log_eq_of_floor (m := m) (e := e) hm]
  · rw [mul_div_cancel_right₀ _ hunit]
  · rw [mul_div_cancel_right₀ _ hunit]
    linarith

/-- Rounding a mantissa in any unit gives the double nearest to its value. -/
theorem round_eq_nearest {m : ℕ} (hm : 0 < m) (e : ℤ) :
    UnpackedFloat.round Format.binary64 .positive m e = nearest (m * 2 ^ e) := by
  have htarget := targetExponent_eq m e
  simp only [UnpackedFloat.round, decreaseExponent]
  generalize Format.binary64.targetExponent (totalExponent m e) = t at htarget
  have hpos : 0 < m <<< (e - t).toNat := by
    rw [Nat.shiftLeft_eq]
    positivity
  have hvalue : ((m <<< (e - t).toNat : ℕ) : ℚ) * 2 ^ (e - (e - t).toNat) = m * 2 ^ e := by
    rw [Nat.shiftLeft_eq, Nat.cast_mul, Nat.cast_pow, Nat.cast_ofNat, ← zpow_natCast, mul_assoc,
      ← zpow_add₀ (by norm_num)]
    congr 2
    ring
  rw [roundWithAccuracy_exact hpos]
  · rw [hvalue]
  · rw [hvalue, spacing_eq hm]
    omega

/-- A product of mantissas with enough bits gives the double nearest to the product of the
values. -/
theorem mul_eq_nearest {m₁ m₂ : ℕ} {e₁ e₂ : ℤ} (h₁ : 0 < m₁) (h₂ : 0 < m₂)
    (hbits : 2 ^ 52 ≤ m₁ * m₂) :
    mul Format.binary64 (.finite .positive m₁ e₁ h₁) (.finite .positive m₂ e₂ h₂) =
      nearest ((m₁ * 2 ^ e₁) * (m₂ * 2 ^ e₂)) := by
  have hpos : 0 < m₁ * m₂ := Nat.mul_pos h₁ h₂
  have hlog : 52 ≤ (m₁ * m₂).log2 := (Nat.le_log2 hpos.ne').mpr hbits
  have hvalue : ((m₁ * 2 ^ e₁) * (m₂ * 2 ^ e₂) : ℚ) = ((m₁ * m₂ : ℕ) : ℚ) * 2 ^ (e₁ + e₂) := by
    rw [zpow_add₀ (by norm_num)]
    push_cast
    ring
  rw [hvalue]
  apply roundWithAccuracy_exact hpos
  rw [spacing_eq hpos]
  omega

/-- What a division leaves stands for the quotient. -/
theorem holds_div {m d : ℕ} (hd : 0 < d) :
    Holds (.ofMantissaAndAccuracy (m / d) (accuracyOfFraction (m % d) d)) (m / d) := by
  have hd' : (0 : ℚ) < d := by exact_mod_cast hd
  have hsplit : (m : ℚ) / d - (m / d : ℕ) = (m % d : ℕ) / d := by
    have hdiv : (m : ℚ) = d * (m / d : ℕ) + (m % d : ℕ) := by
      exact_mod_cast (Nat.div_add_mod m d).symm
    field_simp
    linarith
  have hlt : ((m % d : ℕ) : ℚ) < d := by exact_mod_cast Nat.mod_lt m hd
  unfold accuracyOfFraction
  by_cases hzero : m % d = 0
  · rw [if_pos hzero]
    change (m : ℚ) / d - (m / d : ℕ) = 0
    rw [hsplit, hzero]
    simp
  · have hpos : (0 : ℚ) < (m % d : ℕ) := by exact_mod_cast Nat.pos_of_ne_zero hzero
    rw [if_neg hzero]
    rcases Nat.lt_trichotomy (2 * (m % d)) d with hc | hc | hc
    · rw [Nat.compare_eq_lt.mpr hc]
      change 0 < (m : ℚ) / d - (m / d : ℕ) ∧ (m : ℚ) / d - (m / d : ℕ) < 1 / 2
      have hc' : (2 : ℚ) * (m % d : ℕ) < d := by exact_mod_cast hc
      rw [hsplit, div_lt_div_iff₀ hd' (by norm_num)]
      exact ⟨by positivity, by linarith⟩
    · rw [Nat.compare_eq_eq.mpr hc]
      change (m : ℚ) / d - (m / d : ℕ) = 1 / 2
      have hc' : (2 : ℚ) * (m % d : ℕ) = d := by exact_mod_cast hc
      rw [hsplit, div_eq_div_iff hd'.ne' (by norm_num)]
      linarith
    · rw [Nat.compare_eq_gt.mpr hc]
      change 1 / 2 < (m : ℚ) / d - (m / d : ℕ) ∧ (m : ℚ) / d - (m / d : ℕ) < 1
      have hc' : (d : ℚ) < 2 * (m % d : ℕ) := by exact_mod_cast hc
      rw [hsplit, div_lt_div_iff₀ (by norm_num) hd', div_lt_one hd']
      exact ⟨by linarith, hlt⟩

/-- The logarithm of a quotient is at least the difference of the logarithms less one. -/
theorem log_div_ge {m₁ m₂ : ℕ} (e₁ e₂ : ℤ) (h₁ : 0 < m₁) (h₂ : 0 < m₂) :
    (m₁.log2 : ℤ) + e₁ - (m₂.log2 + e₂) - 1 ≤ Int.log 2 ((m₁ * 2 ^ e₁) / (m₂ * 2 ^ e₂) : ℚ) := by
  have h₁' : (0 : ℚ) < m₁ := by exact_mod_cast h₁
  have h₂' : (0 : ℚ) < m₂ := by exact_mod_cast h₂
  have hlow : (2 : ℚ) ^ ((m₁.log2 : ℤ) + e₁ - (m₂.log2 + e₂) - 1) ≤
      (m₁ * 2 ^ e₁) / (m₂ * 2 ^ e₂) := by
    rw [le_div_iff₀ (by positivity)]
    calc (2 : ℚ) ^ ((m₁.log2 : ℤ) + e₁ - (m₂.log2 + e₂) - 1) * (m₂ * 2 ^ e₂)
        ≤ 2 ^ ((m₁.log2 : ℤ) + e₁ - (m₂.log2 + e₂) - 1) * (2 ^ (m₂.log2 + 1) * 2 ^ e₂) := by
          gcongr
          exact_mod_cast (Nat.lt_log2_self : m₂ < 2 ^ (m₂.log2 + 1)).le
      _ = 2 ^ m₁.log2 * 2 ^ e₁ := by
          simp only [← zpow_natCast, ← zpow_add₀ (by norm_num : (2 : ℚ) ≠ 0)]
          congr 1
          push_cast
          ring
      _ ≤ m₁ * 2 ^ e₁ := by
          gcongr
          exact_mod_cast Nat.log2_self_le h₁.ne'
  exact (Int.zpow_le_iff_le_log (by decide) (by positivity)).mp (by exact_mod_cast hlow)

/-- A quotient gives the double nearest to the quotient of the values. It is cut to a unit before it
is rounded. -/
theorem div_eq_nearest {m₁ m₂ : ℕ} {e₁ e₂ : ℤ} (h₁ : 0 < m₁) (h₂ : 0 < m₂) :
    div Format.binary64 (.finite .positive m₁ e₁ h₁) (.finite .positive m₂ e₂ h₂) =
      nearest ((m₁ * 2 ^ e₁) / (m₂ * 2 ^ e₂)) := by
  have h₁' : (0 : ℚ) < m₁ := by exact_mod_cast h₁
  have h₂' : (0 : ℚ) < m₂ := by exact_mod_cast h₂
  have hlog := log_div_ge e₁ e₂ h₁ h₂
  have hpos : (0 : ℚ) < (m₁ * 2 ^ e₁) / (m₂ * 2 ^ e₂) := by positivity
  have hunit : min (e₁ - e₂) (Format.binary64.targetExponent
      (totalExponent m₁ e₁ - totalExponent m₂ e₂)) =
      min (e₁ - e₂) (max ((m₁.log2 : ℤ) + e₁ - (m₂.log2 + e₂) - 53) (-1074)) := by
    simp only [Format.targetExponent, totalExponent, Format.mantissaBits, Format.minExponent]
    norm_num
    omega
  generalize hte : min (e₁ - e₂) (max ((m₁.log2 : ℤ) + e₁ - (m₂.log2 + e₂) - 53) (-1074)) = te
    at hunit
  have hvalue : ((m₁ * 2 ^ e₁) / (m₂ * 2 ^ e₂) / 2 ^ te : ℚ) =
      ((m₁ <<< (e₁ - e₂ - te).toNat : ℕ) : ℚ) / m₂ := by
    have hexp : e₁ = ((e₁ - e₂ - te).toNat : ℤ) + e₂ + te := by omega
    rw [Nat.shiftLeft_eq, Nat.cast_mul, Nat.cast_pow, Nat.cast_ofNat, ← zpow_natCast]
    conv_lhs => rw [hexp, zpow_add₀ (by norm_num), zpow_add₀ (by norm_num)]
    field_simp
  have hholds := holds_div (m := m₁ <<< (e₁ - e₂ - te).toNat) h₂
  simp only [UnpackedFloat.div, divCore, hunit]
  apply roundWithAccuracy_eq_nearest hpos
  · rw [hvalue]
    exact hholds
  · unfold spacing
    omega
  · intro hzero
    have hlt : ((m₁ * 2 ^ e₁) / (m₂ * 2 ^ e₂) : ℚ) < 2 ^ te := by
      have hsmall : m₁ <<< (e₁ - e₂ - te).toNat < m₂ := (Nat.div_eq_zero_iff_lt h₂).mp hzero
      rw [← div_lt_one (by positivity), hvalue, div_lt_one h₂']
      exact_mod_cast hsmall
    have hlog' : Int.log 2 ((m₁ * 2 ^ e₁) / (m₂ * 2 ^ e₂) : ℚ) < te :=
      (Int.lt_zpow_iff_log_lt (by decide) hpos).mp (by exact_mod_cast hlt)
    omega

end TinyScript.Binary64
