import TinyScript.Proofs.Decimals
import TinyScript.Proofs.Grammar

/-!
# Number literals

A number of a program is written in digits, with a fraction if it has one, and never with an
exponent or a sign. Reading these digits gives the number back.
-/

namespace TinyScript

open Binary64 Float.Model Float.Model.UnpackedFloat

namespace Decimal

/-- Positional digits are a whole part and a fraction, of which the fraction may be missing. Zeros
stand for an exponent above zero, the point stands among the digits, or zeros stand between the
point and the digits. -/
theorem positional_eq (d : Decimal) : ∃ whole fraction : List Char,
    whole ≠ [] ∧ (∀ c ∈ whole, c.isDigit) ∧ (∀ c ∈ fraction, c.isDigit) ∧
    d.positional = (if fraction.isEmpty then whole else whole ++ '.' :: fraction) ∧
    (⟨Nat.ofDigitChars 10 (whole ++ fraction) 0, -(fraction.length : ℤ)⟩ : Decimal).value =
      d.value := by
  have hdigits : ∀ c ∈ d.digits, c.isDigit :=
    fun c hc => Nat.isDigit_of_mem_toDigits (by decide) (by decide) hc
  have hread : Nat.ofDigitChars 10 d.digits 0 = d.coefficient := Nat.ofDigitChars_ten_toDigits
  have hne : d.digits ≠ [] := Nat.toDigits_ne_nil
  have hpos : 0 < d.digits.length := Nat.length_toDigits_pos
  unfold positional
  by_cases hexp : 0 ≤ d.exponent
  · rw [if_pos hexp]
    refine ⟨d.digits ++ List.replicate d.exponent.toNat '0', [], by simp [hne], ?_, by simp,
      by simp, ?_⟩
    · intro c hc
      rcases List.mem_append.mp hc with hc | hc
      · exact hdigits c hc
      · rw [List.eq_of_mem_replicate hc]
        rfl
    · have hpower : (10 : ℚ) ^ d.exponent = 10 ^ d.exponent.toNat := by
        rw [← zpow_natCast, Int.toNat_of_nonneg hexp]
      simp [value, Nat.ofDigitChars_append, hread, hpower]
      ring
  rw [if_neg hexp]
  dsimp only
  by_cases hplaces : d.exponent.natAbs < d.digits.length
  · rw [if_pos hplaces]
    have hsome : d.digits.drop (d.digits.length - d.exponent.natAbs) ≠ [] := by
      simp
      omega
    refine ⟨d.digits.take (d.digits.length - d.exponent.natAbs),
      d.digits.drop (d.digits.length - d.exponent.natAbs), ?_, ?_, ?_, ?_, ?_⟩
    · simp [hne]
      omega
    · exact fun c hc => hdigits c (List.mem_of_mem_take hc)
    · exact fun c hc => hdigits c (List.mem_of_mem_drop hc)
    · rw [if_neg (by simpa using hsome)]
    · have hlength : (d.digits.drop (d.digits.length - d.exponent.natAbs)).length =
          d.exponent.natAbs := by
        simp
        omega
      rw [List.take_append_drop, hread, hlength]
      unfold value
      congr 2
      simp only
      omega
  · rw [if_neg hplaces]
    refine ⟨['0'], List.replicate (d.exponent.natAbs - d.digits.length) '0' ++ d.digits, by simp,
      by simp, ?_, by simp [hne], ?_⟩
    · intro c hc
      rcases List.mem_append.mp hc with hc | hc
      · rw [List.eq_of_mem_replicate hc]
        rfl
      · exact hdigits c hc
    · have hlength : (List.replicate (d.exponent.natAbs - d.digits.length) '0' ++ d.digits).length =
          d.exponent.natAbs := by
        simp
        omega
      have hzeros : Nat.ofDigitChars 10
          (['0'] ++ (List.replicate (d.exponent.natAbs - d.digits.length) '0' ++ d.digits)) 0 =
          d.coefficient := by
        simp [Nat.ofDigitChars_append, Nat.ofDigitChars_cons, hread]
      rw [hzeros, hlength]
      unfold value
      congr 2
      simp only
      omega

end Decimal

namespace Number

/-- A double without sign is not negative. -/
theorem isNegative_of_unsigned {x : Float} (hx : Unsigned x) : isNegative x = false := by
  have hsign :
      Sign.ofBitVec (@unpackSign Format.binary64 x.toModel.toBits.toBitVec) = .positive := by
    unfold Unsigned at hx
    simp only [Float.Model.unpack, UnpackedFloat.unpack] at hx
    split_ifs at hx
    · exact hx
    · exact hx.elim
    · exact hx
    · exact hx
    · exact hx
  have hbit : (@unpackSign Format.binary64 x.toModel.toBits.toBitVec).toNat = 0 := by
    simp only [Sign.ofBitVec, ite_eq_left_iff, reduceCtorEq, imp_false, not_not] at hsign
    rw [hsign]
    rfl
  rw [unpackSign_def] at hbit
  simp only [BitVec.extractLsb'_toNat, Nat.shiftRight_eq_div_pow] at hbit
  have hlt : x.toModel.toBits.toBitVec.toNat < 2 ^ 64 := x.toModel.toBits.toBitVec.isLt
  simp only [isNegative, decide_eq_false_iff_not]
  change ¬ 9223372036854775808 ≤ x.toModel.toBits.toBitVec.toNat
  omega

end Number

namespace Token

/-- The byte of an ASCII character. -/
def byteOf (c : Char) : UInt8 := c.val.toUInt8

/-- A digit is one byte in a text, and that byte is a digit with the same value. -/
theorem byteOf_digit {c : Char} (h : c.isDigit) : String.utf8EncodeChar c = [byteOf c] ∧
    isDigit (byteOf c) ∧ (byteOf c).toNat = c.toNat := by
  have hrange : 48 ≤ c.toNat ∧ c.toNat ≤ 57 := Char.isDigit_iff_toNat.mp h
  have hvalue : (byteOf c).toNat = c.toNat := by
    change c.toNat % 256 = c.toNat
    omega
  refine ⟨?_, ?_, hvalue⟩
  · have hascii : c.toNat ≤ 127 := by omega
    simp [String.utf8EncodeChar, hascii]
    rfl
  · simp [isDigit, UInt8.le_iff_toNat_le, hvalue, hrange]

/-- The value of digits as bytes is their value as characters. -/
theorem digitsValue_map {cs : List Char} (h : ∀ c ∈ cs, c.isDigit) :
    digitsValue (cs.map byteOf) = Nat.ofDigitChars 10 cs 0 := by
  rw [digitsValue, List.foldl_map, Nat.ofDigitChars_eq_foldl]
  apply List.foldl_ext
  intro n c hc
  rw [(byteOf_digit (h c hc)).2.2]
  rfl

/-- The bytes of a text of digits. -/
theorem flatMap_utf8EncodeChar {cs : List Char} (h : ∀ c ∈ cs, c.isDigit) :
    cs.flatMap String.utf8EncodeChar = cs.map byteOf := by
  induction cs with
  | nil => rfl
  | cons c cs ih =>
    simp only [List.mem_cons, forall_eq_or_imp] at h
    rw [List.flatMap_cons, List.map_cons, ih h.2, (byteOf_digit h.1).1]
    rfl

/-- The value of digits, from the last one to the first. -/
theorem digitsValue_eq_ofDigits (ds : List UInt8) :
    digitsValue ds = Nat.ofDigits 10 (ds.reverse.map fun d => d.toNat - 0x30) := by
  induction ds using List.reverseRecOn with
  | nil => rfl
  | append_singleton ds d ih =>
    rw [digitsValue, List.foldl_append, ← digitsValue, ih, List.reverse_append, List.map_append]
    simp [Nat.ofDigits_cons, Nat.add_comm]

/-- The digits of a number are read as the double nearest to what they stand for. -/
theorem numberValue_eq_toDouble (whole fraction : List UInt8) :
    numberValue whole fraction = toDouble (Grammar.decimalValue whole fraction) := by
  rw [numberValue, Decimal.toFloat_eq_toDouble, Decimal.value, digitsValue_eq_ofDigits,
    Grammar.decimalValue, zpow_neg, zpow_natCast, div_eq_mul_inv, Nat.coe_ofDigits,
    Nat.cast_ofNat]

/-- What is read of the digits of a number has no sign and is no NaN. -/
theorem unsigned_numberValue (whole fraction : List UInt8) :
    Unsigned (numberValue whole fraction) := Decimal.unsigned_toFloat _

/-- The text of a finite number without sign is its digits, and these are read as the number. -/
theorem literal_eq {x : Float} (hx : Unsigned x) (hfin : x.isInf = false) :
    ∃ whole fraction : List UInt8, whole ≠ [] ∧ (∀ d ∈ whole, isDigit d) ∧
      (∀ d ∈ fraction, isDigit d) ∧ (Number.literal x).bytes = numberText whole fraction ∧
      numberValue whole fraction = x := by
  obtain ⟨whole, fraction, hne, hwhole, hfraction, htext, hvalue⟩ :=
    (Decimal.shortest x).positional_eq
  have hnan : x.isNaN = false := by
    change x.toModel.unpack.isNaN = false
    unfold Unsigned at hx
    cases h : x.toModel.unpack <;> simp_all [UnpackedFloat.isNaN]
  have hdigit {cs : List Char} (h : ∀ c ∈ cs, c.isDigit) : ∀ d ∈ cs.map byteOf, isDigit d := by
    intro d hd
    obtain ⟨c, hc, rfl⟩ := List.mem_map.mp hd
    exact (byteOf_digit (h c hc)).2.1
  refine ⟨whole.map byteOf, fraction.map byteOf, by simpa using hne, hdigit hwhole,
    hdigit hfraction, ?_, ?_⟩
  · rw [Number.literal, hnan, hfin, Number.sign, Number.isNegative_of_unsigned hx, htext]
    simp only [Bool.false_eq_true, if_false, List.nil_append, Text.ofChars, Text.bytes_ofBytes,
      numberText, List.isEmpty_map]
    split_ifs
    · exact flatMap_utf8EncodeChar hwhole
    · rw [List.flatMap_append, List.flatMap_cons, flatMap_utf8EncodeChar hwhole,
        flatMap_utf8EncodeChar hfraction]
      rfl
  · rw [numberValue, ← List.map_append, digitsValue_map, List.length_map,
      Decimal.toFloat_eq_toDouble, hvalue, ← Decimal.toFloat_eq_toDouble,
      Decimal.toFloat_shortest hx hfin]
    intro c hc
    exact (List.mem_append.mp hc).elim (hwhole c) (hfraction c)

end Token

/-- A number of the grammar, by the value that is read of its digits. -/
theorem Grammar.Atom.ofNumberValue {whole fraction : List UInt8} (hne : whole ≠ [])
    (hwhole : ∀ d ∈ whole, Token.isDigit d = true)
    (hfraction : ∀ d ∈ fraction, Token.isDigit d = true)
    (hfinite : (Token.numberValue whole fraction).isFinite = true) :
    Atom (Token.numberText whole fraction) (.number (Token.numberValue whole fraction)) := by
  rw [Token.numberValue_eq_toDouble] at hfinite ⊢
  exact .number hne hwhole hfraction hfinite

end TinyScript
