import TinyScript.Proofs.DoubleValues

/-!
# Positions among things in a row

A number names a position by its integer part. The position is settled exactly, whatever the number
is and however many things there are. Below `2 ^ 53` things the same position comes out if it is
computed with doubles throughout, where the number of things is a double and counting from the end
is an addition of doubles.
-/

namespace TinyScript

namespace Binary64

open Float.Model Float.Model.UnpackedFloat

/-- Infinity, or minus infinity. -/
def infinity (s : Sign) : Float := .ofModel (Float.Model.pack (.infinity s))

/-- An infinity is unpacked as an infinity of the same sign. -/
theorem unpack_infinity (s : Sign) : (infinity s).toModel.unpack = .infinity s := by
  cases s <;> rfl

/-- A double is NaN, infinite or has a value. -/
theorem double_cases (x : Float) :
    x.isNaN = true ∨ (∃ s, x = infinity s) ∨ ∃ q, value? x = some q := by
  cases hx : x.toModel.unpack with
  | notANumber =>
    left
    change x.toModel.unpack.isNaN = true
    rw [hx]
    rfl
  | infinity s => exact Or.inr (Or.inl ⟨s, eq_of_unpack_eq (by rw [hx, unpack_infinity])⟩)
  | zero s => exact Or.inr (Or.inr ⟨0, by rw [value?, hx]; rfl⟩)
  | finite s m e hm => exact Or.inr (Or.inr ⟨_, by rw [value?, hx]; rfl⟩)

/-- Every finite double is below infinity. -/
theorem lt_infinity {x : Float} {q : ℚ} (h : value? x = some q) : x < infinity .positive := by
  rw [lt_iff_rank (isNaN_of_value? h) (by decide), unpack_infinity]
  rcases unpack_of_value? h with ⟨s, hx, -⟩ | ⟨s, m, e, hm, hx, -⟩
  · rw [hx]
    simp [rank, Prod.Lex.toLex_lt_toLex]
  · rw [hx]
    cases s <;> simp [rank, Prod.Lex.toLex_lt_toLex]

/-- Minus infinity stays what it is if something finite is added. -/
theorem infinity_add {x : Float} {q : ℚ} (h : value? x = some q) (s : Sign) :
    infinity s + x = infinity s := by
  change Float.ofModel (Float.Model.pack
    (UnpackedFloat.add Format.binary64 (infinity s).toModel.unpack x.toModel.unpack)) = _
  rw [unpack_infinity]
  rcases unpack_of_value? h with ⟨s', hx, -⟩ | ⟨s', m, e, hm, hx, -⟩ <;> rw [hx] <;> rfl

end Binary64

namespace Number

open Binary64

variable {x : Float} {q : ℚ} {n : ℕ} {fromEnd : Bool}

/-- A position that is no number is the first one. -/
theorem clamp_of_isNaN (h : x.isNaN = true) : clamp x n fromEnd = 0 := by
  have hunpack : x.toModel.unpack = .notANumber := by
    change x.toModel.unpack.isNaN = true at h
    cases hx : x.toModel.unpack with
    | notANumber => rfl
    | _ => rw [hx] at h; cases h
  have htruncate : truncate (-n) n x = 0 := by
    rw [truncate, hunpack]
    rfl
  simp [clamp, htruncate]

/-- Infinity is the position behind the last thing. -/
theorem clamp_infinity : clamp (infinity .positive) n fromEnd = n := by
  have htruncate : truncate (-n) n (infinity .positive) = n := by
    rw [truncate, unpack_infinity]
    rfl
  simp [clamp, htruncate]

/-- Minus infinity is the first position. -/
theorem clamp_negInfinity : clamp (infinity .negative) n fromEnd = 0 := by
  have htruncate : truncate (-n) n (infinity .negative) = -n := by
    rw [truncate, unpack_infinity]
    rfl
  simp [clamp, htruncate]

/-- The position that a finite number names. -/
theorem clamp_of_value? (h : value? x = some q) : clamp x n fromEnd =
    if towardsZero q < 0 then (if fromEnd then (n + towardsZero q).toNat else 0)
    else min (towardsZero q).toNat n := by
  rw [clamp, truncate_eq h]

/-- A whole number names the position with its number. -/
theorem clamp_natCast {i : ℕ} (h : value? x = some (i : ℚ)) (hi : i ≤ n) :
    clamp x n fromEnd = i := by
  have hwhole : towardsZero (i : ℚ) = (i : ℤ) := by exact_mod_cast towardsZero_intCast i
  rw [clamp_of_value? h, hwhole, if_neg (by omega), Int.toNat_natCast, min_eq_left hi]

/-- The integer part of a number as a double. -/
def integerPart (x : Float) : Float := if x < 0 then ceil x else floor x

/-- The position for a double without fraction, which is settled by comparing doubles. -/
def settle (f : Float) (n : ℕ) : ℕ :=
  if f < 0 then 0 else if Float.ofNat n < f then n else (truncate 0 0 f).toNat

/-- A position among `n` things that is computed with doubles. -/
def clampByDoubles (x : Float) (n : ℕ) (fromEnd : Bool) : ℕ :=
  if x.isNaN then 0
  else if integerPart x < 0 then
    if fromEnd then settle (integerPart x + Float.ofNat n) n else 0
  else settle (integerPart x) n

/-- The integer part of a finite double has the value rounded towards zero. -/
theorem value?_integerPart (h : value? x = some q) :
    value? (integerPart x) = some (towardsZero q : ℚ) := by
  rw [integerPart, towardsZero]
  by_cases hneg : q < 0
  · rw [if_pos ((lt_iff_value h value?_zero).mpr hneg), if_neg (not_le.mpr hneg)]
    exact value?_ceil h
  · rw [if_neg (mt (lt_iff_value h value?_zero).mp hneg), if_pos (not_lt.mp hneg)]
    exact value?_floor h

/-- A double without fraction is below zero exactly if its value is. -/
theorem lt_zero_iff {f : Float} {k : ℤ} (h : value? f = some (k : ℚ)) : f < 0 ↔ k < 0 := by
  rw [lt_iff_value h value?_zero]
  exact Int.cast_lt_zero

/-- A double without fraction is settled as its value is: from the first position to the one behind
the last thing. -/
theorem settle_eq {f : Float} {k : ℤ} (hn : n ≤ 2 ^ 53) (h : value? f = some (k : ℚ)) :
    settle f n = min k.toNat n := by
  have hlt : Float.ofNat n < f ↔ (n : ℤ) < k := by
    rw [lt_iff_value (value?_ofNat hn) h]
    exact_mod_cast Iff.rfl
  rw [settle]
  simp only [lt_zero_iff h, hlt, truncate_eq h, towardsZero_intCast]
  split_ifs <;> omega

/-- Below `2 ^ 53` things, computing with doubles gives the exact position: counting from the end
ends in front of the first place, or at a whole number. -/
theorem clampByDoubles_eq (hn : n < 2 ^ 53) : clampByDoubles x n fromEnd = clamp x n fromEnd := by
  have hlength : value? (Float.ofNat n) = some (n : ℚ) := value?_ofNat hn.le
  rcases double_cases x with hnan | ⟨s, rfl⟩ | ⟨q, hq⟩
  · rw [clampByDoubles, if_pos hnan, clamp_of_isNaN hnan]
  · cases s with
    | positive =>
      have hpart : integerPart (infinity .positive) = infinity .positive := by decide
      have hsettle : settle (infinity .positive) n = n := by
        rw [settle, if_neg (by decide), if_pos (lt_infinity hlength)]
      rw [clampByDoubles, hpart, hsettle, clamp_infinity, if_neg (by decide), if_neg (by decide)]
    | negative =>
      have hpart : integerPart (infinity .negative) = infinity .negative := by decide
      have hsettle : settle (infinity .negative) n = 0 := by rw [settle, if_pos (by decide)]
      rw [clampByDoubles, hpart, infinity_add hlength, hsettle, clamp_negInfinity,
        if_neg (by decide), if_pos (by decide), ite_self]
  · have hpart := value?_integerPart hq
    have hnan := isNaN_of_value? hq
    rw [clampByDoubles, hnan, if_neg (by decide), clamp_of_value? hq]
    simp only [lt_zero_iff hpart, settle_eq hn.le hpart]
    split_ifs with hneg hend
    · rcases lt_or_ge (n + towardsZero q) 0 with hbelow | hplace
      · have hsum : (towardsZero q + n : ℚ) ≤ -1 := by
          have hle : towardsZero q + n ≤ -1 := by omega
          exact_mod_cast hle
        rw [settle, if_pos (add_lt_zero hpart hlength hsum)]
        omega
      · have hsum : (towardsZero q + n : ℚ) = ((n + towardsZero q).toNat : ℕ) := by
          have hcast : towardsZero q + n = ((n + towardsZero q).toNat : ℤ) := by omega
          exact_mod_cast hcast
        have hvalue := value?_add_natCast hpart hlength hsum (by omega)
        have hsettle := settle_eq (k := ((n + towardsZero q).toNat : ℕ)) hn.le
          (by exact_mod_cast hvalue)
        rw [hsettle]
        omega
    · rfl
    · rfl

end Number

end TinyScript
