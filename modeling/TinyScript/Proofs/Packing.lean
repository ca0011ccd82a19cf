import TinyScript.Proofs.Nearest

/-!
# Doubles and their values

A finite double without sign is a mantissa and an exponent, and each double has one such pair. So a
double is the one nearest to its own value, and two doubles without sign that compare equal are the
same one.
-/

namespace TinyScript.Binary64

open Float.Model Float.Model.UnpackedFloat

/-- The mantissas and exponents of finite doubles, as far as no exponent is too large. -/
structure Canonical (m : ℕ) (e : ℤ) : Prop where
  pos : 0 < m
  lt : m < 2 ^ 53
  le : -1074 ≤ e
  normal : 2 ^ 52 ≤ m ∨ e = -1074

/-- The double nearest to a value. -/
def toDouble (q : ℚ) : Float := .ofModel (Float.Model.pack (nearest q))

/-- A double that is no NaN and has no sign. -/
def Unsigned (x : Float) : Prop :=
  match x.toModel.unpack with
  | .infinity s => s = .positive
  | .notANumber => False
  | .zero s => s = .positive
  | .finite s _ _ _ => s = .positive

/-- A double is known by its sign, mantissa and exponent. -/
theorem eq_of_unpack_eq {x y : Float} (h : x.toModel.unpack = y.toModel.unpack) : x = y := by
  have hx := pack_unpack_of_valid x.toModel.valid
  have hy := pack_unpack_of_valid y.toModel.valid
  have hbits : x.toModel.toBits.toBitVec = y.toModel.toBits.toBitVec := by
    rw [← hx, ← hy]
    exact congrArg (UnpackedFloat.pack Format.binary64) h
  exact Float.toBits_inj.mp (UInt64.toBitVec_inj.mp hbits)

/-- Packing what a double is made of gives the double back. -/
theorem pack_unpack_model (x : Float) : Float.ofModel (Float.Model.pack x.toModel.unpack) = x := by
  apply Float.toBits_inj.mp
  exact UInt64.toBitVec_inj.mp (pack_unpack_of_valid x.toModel.valid)

/-- Two doubles without sign that compare equal are the same. -/
theorem Unsigned.eq_of_beq {x y : Float} (hx : Unsigned x) (hy : Unsigned y) (h : (x == y) = true) :
    x = y := by
  apply eq_of_unpack_eq
  have hbeq : x.toModel.unpack.beq y.toModel.unpack = true := h
  rcases (beq_iff_ne_notANumber_and_eq _ _).mp hbeq with ⟨-, -, heq | ⟨-, hneg⟩ | ⟨hneg, -⟩⟩
  · exact heq
  · simp [Unsigned, hneg] at hy
  · simp [Unsigned, hneg] at hx

/-- A double without sign compares equal to itself. -/
theorem Unsigned.beq_self {x : Float} (hx : Unsigned x) : (x == x) = true := by
  have hne : x.toModel.unpack ≠ notANumber := by
    intro h
    simp [Unsigned, h] at hx
  exact (beq_iff_ne_notANumber_and_eq _ _).mpr ⟨hne, hne, Or.inl rfl⟩

/-- The absolute value of a double without sign is the double. -/
theorem Unsigned.abs_eq {x : Float} (hx : Unsigned x) : x.abs = x := by
  have habs : x.toModel.unpack.abs = x.toModel.unpack := by
    unfold Unsigned at hx
    cases h : x.toModel.unpack <;> simp_all [UnpackedFloat.abs]
  change Float.ofModel (Float.Model.pack x.toModel.unpack.abs) = x
  rw [habs, pack_unpack_model]

/-- A double that is no NaN is finite or infinite. -/
theorem Unsigned.isFinite_eq {x : Float} (hx : Unsigned x) : x.isFinite = !x.isInf := by
  change x.toModel.unpack.isFinite = !x.toModel.unpack.isInf
  unfold Unsigned at hx
  cases h : x.toModel.unpack <;> simp_all [UnpackedFloat.isFinite, UnpackedFloat.isInf]

/-- A subnormal pair is unchanged by packing. -/
theorem unpack_pack_subnormal {s : Sign} {m : ℕ} (hpos : 0 < m) (hlt : m < 2 ^ 52) :
    (Float.Model.pack (.finite s m (-1074) hpos)).unpack = .finite s m (-1074) hpos := by
  have hlog : m.log2 < 52 := (Nat.log2_lt hpos.ne').mpr hlt
  have hne : BitVec.ofNat 52 m ≠ 0#52 := by
    intro hzero
    have hnat := congrArg BitVec.toNat hzero
    simp only [BitVec.toNat_ofNat, Nat.mod_eq_of_lt hlt] at hnat
    omega
  simp only [Float.Model.unpack, Float.Model.pack, UnpackedFloat.pack]
  rw [if_neg (by simp [Format.exponentBias]), if_neg (by simp [Format.mantissaBits]; omega)]
  simp only [UnpackedFloat.unpack, unpackExponent_packComponents, unpackMantissa_packComponents,
    unpackSign_packComponents, Sign.ofBitVec_toBitVec, hne]
  simp only [Format.exponentBias]
  simpa using hlt

/-- A normal pair whose exponent is small enough is unchanged by packing. -/
theorem unpack_pack_normal {s : Sign} {m : ℕ} {e : ℤ} (hlow : 2 ^ 52 ≤ m) (hhigh : m < 2 ^ 53)
    (hmin : -1074 ≤ e) (hmax : e ≤ 971) :
    (Float.Model.pack (.finite s m e (by omega))).unpack = .finite s m e (by omega) := by
  have hlog : m.log2 = 52 := (Nat.log2_eq_iff (by omega)).mpr ⟨hlow, hhigh⟩
  have hbias : (Format.binary64.exponentBias : ℤ) = 1023 := rfl
  have hmantissa : (1#1 ++ BitVec.ofNat 52 m).toNat = m := by
    rw [BitVec.toNat_append, ← Nat.shiftLeft_add_eq_or_of_lt (BitVec.isLt _), BitVec.toNat_ofNat,
      BitVec.toNat_ofNat, Nat.shiftLeft_eq]
    omega
  simp only [Float.Model.unpack, Float.Model.pack, UnpackedFloat.pack]
  generalize hb : (e + Format.binary64.exponentBias + (52 : ℕ)).toNat = biased
  have hvalue : (biased : ℤ) = e + 1075 := by omega
  have hnat : (BitVec.ofNat 11 biased).toNat = biased := by
    rw [BitVec.toNat_ofNat, Nat.mod_eq_of_lt (by omega)]
  have hones : BitVec.ofNat 11 biased ≠ -1#11 := by
    intro h
    have hmax := hnat.symm.trans (congrArg BitVec.toNat h)
    simp only [BitVec.neg_one_eq_allOnes, BitVec.toNat_allOnes] at hmax
    omega
  have hzero : BitVec.ofNat 11 biased ≠ 0#11 := by
    intro h
    have hmin := hnat.symm.trans (congrArg BitVec.toNat h)
    simp only [BitVec.toNat_zero] at hmin
    omega
  rw [if_neg (by omega), if_pos (by rw [hlog]; rfl)]
  simp only [UnpackedFloat.unpack, unpackExponent_packComponents, unpackMantissa_packComponents,
    unpackSign_packComponents, Sign.ofBitVec_toBitVec]
  rw [if_neg hones, if_neg hzero]
  simp only [hmantissa, hnat, hvalue, hbias]
  congr 1
  push_cast
  ring

/-- A canonical pair whose exponent is small enough is unchanged by packing. -/
theorem unpack_pack {s : Sign} {m : ℕ} {e : ℤ} (h : Canonical m e) (he : e ≤ 971) :
    (Float.Model.pack (.finite s m e h.pos)).unpack = .finite s m e h.pos := by
  by_cases hlow : 2 ^ 52 ≤ m
  · exact unpack_pack_normal hlow h.lt h.le he
  · obtain rfl : e = -1074 := h.normal.resolve_left hlow
    exact unpack_pack_subnormal h.pos (by omega)

/-- A pair whose exponent is too large is packed as infinity. -/
theorem pack_of_large {s : Sign} {m : ℕ} {e : ℤ} (hpos : 0 < m) (he : 971 < e) :
    Float.Model.pack (.finite s m e hpos) = Float.Model.pack (.infinity s) := by
  have hbias : (Format.binary64.exponentBias : ℤ) = 1023 := rfl
  simp only [Float.Model.pack, UnpackedFloat.pack]
  congr 2
  rw [if_pos (by omega)]

/-- The pair of a finite double is canonical. -/
theorem canonical_of_unpack {x : Float} {s : Sign} {m : ℕ} {e : ℤ} {hpos : 0 < m}
    (h : x.toModel.unpack = .finite s m e hpos) : Canonical m e := by
  have hbias : (Format.binary64.exponentBias : ℤ) = 1023 := rfl
  have hmantissa (v : BitVec 52) : (1#1 ++ v).toNat = 2 ^ 52 + v.toNat := by
    rw [BitVec.toNat_append, ← Nat.shiftLeft_add_eq_or_of_lt v.isLt]
    simp [Nat.shiftLeft_eq]
  have hlt : (@unpackMantissa Format.binary64 x.toModel.toBits.toBitVec).toNat < 2 ^ 52 :=
    BitVec.isLt _
  simp only [Float.Model.unpack, UnpackedFloat.unpack] at h
  split_ifs at h with hones hinf hzero hmzero
  · simp only [finite.injEq] at h
    obtain ⟨-, rfl, rfl⟩ := h
    refine ⟨hpos, by omega, ?_, Or.inr ?_⟩ <;> simp [hzero, hbias]
  · simp only [finite.injEq] at h
    obtain ⟨-, rfl, rfl⟩ := h
    have hexp : 0 < (@unpackExponent Format.binary64 x.toModel.toBits.toBitVec).toNat := by
      rw [Nat.pos_iff_ne_zero]
      exact fun h => hzero (BitVec.eq_of_toNat_eq h)
    have hvalue := hmantissa (@unpackMantissa Format.binary64 x.toModel.toBits.toBitVec)
    exact ⟨hpos, by omega, by omega, Or.inl (by omega)⟩

/-- The double nearest to the value of a canonical pair is that pair. -/
theorem nearest_of_canonical {m : ℕ} {e : ℤ} (h : Canonical m e) :
    nearest (m * 2 ^ e) = .finite .positive m e h.pos := by
  have hspacing : spacing (m * 2 ^ e) = e := by
    have hpos := h.pos
    have hmin := h.le
    have hlog : m.log2 < 53 := (Nat.log2_lt hpos.ne').mpr h.lt
    rw [spacing_eq hpos]
    rcases h.normal with hlow | rfl
    · have hlow' : 52 ≤ m.log2 := (Nat.le_log2 hpos.ne').mpr hlow
      omega
    · omega
  have hround : halfEven ((m * 2 ^ e) / 2 ^ e) = m := by
    rw [mul_div_cancel_right₀ _ (by positivity), halfEven_natCast]
  simp only [nearest, hspacing, hround, h.lt, h.pos.ne', if_true, dif_neg, not_false_eq_true]

/-- The double nearest to nothing is zero. -/
@[simp] theorem nearest_zero : nearest 0 = .zero .positive := by
  simp [nearest, halfEven]

/-- Rounding never goes below the integer part. -/
theorem floor_le_halfEven (x : ℚ) : ⌊x⌋₊ ≤ halfEven x := by
  unfold halfEven
  split_ifs <;> omega

/-- The rounded mantissa of a value has all its bits, unless the spacing is the least one. -/
theorem halfEven_normal {q : ℚ} (hq : 0 < q) :
    2 ^ 52 ≤ halfEven (q / 2 ^ spacing q) ∨ spacing q = -1074 := by
  by_cases hsub : spacing q = -1074
  · exact Or.inr hsub
  · left
    have hspacing : spacing q = Int.log 2 q - 52 := by
      unfold spacing at hsub ⊢
      omega
    have hlow : (2 : ℚ) ^ Int.log 2 q ≤ q := by
      exact_mod_cast Int.zpow_log_le_self (by decide : 1 < 2) hq
    refine le_trans (Nat.le_floor ?_) (floor_le_halfEven _)
    rw [le_div_iff₀ (by positivity), hspacing]
    calc ((2 ^ 52 : ℕ) : ℚ) * 2 ^ (Int.log 2 q - 52) = 2 ^ (52 + (Int.log 2 q - 52)) := by
          rw [zpow_add₀ (by norm_num)]
          norm_num
      _ = 2 ^ Int.log 2 q := by congr 1; ring
      _ ≤ q := hlow

/-- The double nearest to a positive value is zero or canonical. -/
theorem nearest_cases {q : ℚ} (hq : 0 < q) : nearest q = .zero .positive ∨
    ∃ (m : ℕ) (e : ℤ) (h : Canonical m e), nearest q = .finite .positive m e h.pos := by
  have hmin : -1074 ≤ spacing q := le_max_right _ _
  by_cases hzero : halfEven (q / 2 ^ spacing q) = 0
  · exact Or.inl (by simp only [nearest, hzero, dif_pos])
  · right
    by_cases hlt : halfEven (q / 2 ^ spacing q) < 2 ^ 53
    · refine ⟨_, _, ⟨Nat.pos_of_ne_zero hzero, hlt, hmin, halfEven_normal hq⟩, ?_⟩
      simp only [nearest, hzero, hlt, dif_neg, if_true, not_false_eq_true]
    · refine ⟨2 ^ 52, spacing q + 1, ⟨by decide, by decide, by omega, Or.inl le_rfl⟩, ?_⟩
      simp only [nearest, hzero, hlt, dif_neg, if_false, not_false_eq_true]

/-- No double nearest to a value has a sign or is a NaN. -/
theorem unsigned_toDouble {q : ℚ} (hq : 0 ≤ q) : Unsigned (toDouble q) := by
  have hzero : Unsigned (.ofModel (Float.Model.pack (.zero .positive))) := rfl
  rcases hq.eq_or_lt with rfl | hpos
  · rw [toDouble, nearest_zero]
    exact hzero
  · rcases nearest_cases hpos with h | ⟨m, e, hc, h⟩
    · rw [toDouble, h]
      exact hzero
    · rw [toDouble, h]
      rcases le_or_gt e 971 with he | he
      · simp only [Unsigned, unpack_pack hc he]
      · rw [pack_of_large hc.pos he]
        rfl

/-- A double without sign is the one nearest to its own value. -/
theorem toDouble_of_unpack {x : Float} {m : ℕ} {e : ℤ} {hpos : 0 < m}
    (h : x.toModel.unpack = .finite .positive m e hpos) : toDouble (m * 2 ^ e) = x := by
  rw [toDouble, nearest_of_canonical (canonical_of_unpack h), ← h]
  exact pack_unpack_model x

/-- A value that is too large for doubles is packed as infinity. -/
theorem pack_nearest_of_large {q : ℚ} (h : 2 ^ (1024 : ℤ) ≤ q) :
    Float.Model.pack (nearest q) = Float.Model.pack (.infinity .positive) := by
  have hq : 0 < q := lt_of_lt_of_le (by positivity) h
  have hlog : 1024 ≤ Int.log 2 q :=
    (Int.zpow_le_iff_le_log (by decide) hq).mp (by exact_mod_cast h)
  have hspacing : 971 < spacing q := by
    unfold spacing
    omega
  have hlow : 2 ^ 52 ≤ halfEven (q / 2 ^ spacing q) := (halfEven_normal hq).resolve_right (by omega)
  have hzero : halfEven (q / 2 ^ spacing q) ≠ 0 := by omega
  simp only [nearest, hzero, dif_neg, not_false_eq_true]
  split_ifs
  · exact pack_of_large _ hspacing
  · exact pack_of_large _ (by omega)

/-- A value that is too small for doubles is rounded to zero. -/
theorem nearest_of_small {q : ℚ} (hq : 0 < q) (h : q < 2 ^ (-1075 : ℤ)) :
    nearest q = .zero .positive := by
  have hlog : Int.log 2 q < -1075 :=
    (Int.lt_zpow_iff_log_lt (by decide) hq).mp (by exact_mod_cast h)
  have hspacing : spacing q = -1074 := by
    unfold spacing
    omega
  have hhalf : q / 2 ^ (-1074 : ℤ) < 1 / 2 := by
    rw [div_lt_iff₀ (by positivity)]
    calc q < 2 ^ (-1 + -1074 : ℤ) := h
      _ = 1 / 2 * 2 ^ (-1074 : ℤ) := by rw [zpow_add₀ (by norm_num), zpow_neg_one, one_div]
  have hfloor : ⌊q / 2 ^ (-1074 : ℤ)⌋₊ = 0 := Nat.floor_eq_zero.mpr (by linarith)
  have hround : halfEven (q / 2 ^ (-1074 : ℤ)) = 0 := by
    simp only [halfEven, hfloor, Nat.cast_zero, sub_zero]
    rw [if_pos hhalf]
  simp only [nearest, hspacing, hround, dif_pos]

end TinyScript.Binary64
