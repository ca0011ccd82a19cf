import TinyScript.Proofs.CharacterBytes
import TinyScript.Proofs.Decimals
import TinyScript.Text.Hex

/-!
# JSON

What a JSON text says. The rules go through a text from left to right: each of them tells what the
text begins with and what is left behind that. White space and digits go as far as they can, so no
rule leaves a choice, and a text says one thing at most.
-/

namespace TinyScript

/-- What a JSON text says. The members of an object are in the order of the text. -/
inductive Json where
  | null
  | boolean (b : Bool)
  | number (x : ℚ)
  | string (cs : List Char)
  | array (items : List Json)
  | object (members : List (List Char × Json))

namespace Json

/-- The white space that may stand between the parts of a text. -/
def isBlank (c : Char) : Bool := c == ' ' || c == '\t' || c == '\n' || c == '\r'

/-- A text without the white space in front. -/
def skipBlank (t : List Char) : List Char := t.dropWhile isBlank

/-- No text can be read in two ways by a rule. -/
def Unambiguous {α : Type} (R : List Char → α → List Char → Prop) : Prop :=
  ∀ {t : List Char} {a a' : α} {r r' : List Char}, R t a r → R t a' r' → a = a' ∧ r = r'

/-- The digits that a text begins with. -/
def digits (t : List Char) : List Char := t.takeWhile Char.isDigit

/-- A text without the digits that it begins with. -/
def skipDigits (t : List Char) : List Char := t.dropWhile Char.isDigit

/-- A point with digits behind it, or nothing. -/
inductive ReadsFraction : List Char → List Char → List Char → Prop where
  | none {t : List Char} (hpoint : t.head? ≠ some '.') : ReadsFraction t [] t
  | some {t : List Char} (hne : digits t ≠ []) :
      ReadsFraction ('.' :: t) (digits t) (skipDigits t)

/-- The letter of an exponent with a sign, if there is one, and digits behind it, or nothing. -/
inductive ReadsExponent : List Char → ℤ → List Char → Prop where
  | none {t : List Char} (hsmall : t.head? ≠ some 'e') (hlarge : t.head? ≠ some 'E') :
      ReadsExponent t 0 t
  | unsigned {c : Char} {t : List Char} (hc : c = 'e' ∨ c = 'E') (hne : digits t ≠ []) :
      ReadsExponent (c :: t) (Nat.ofDigitChars 10 (digits t) 0) (skipDigits t)
  | plus {c : Char} {t : List Char} (hc : c = 'e' ∨ c = 'E') (hne : digits t ≠ []) :
      ReadsExponent (c :: '+' :: t) (Nat.ofDigitChars 10 (digits t) 0) (skipDigits t)
  | minus {c : Char} {t : List Char} (hc : c = 'e' ∨ c = 'E') (hne : digits t ≠ []) :
      ReadsExponent (c :: '-' :: t) (-Nat.ofDigitChars 10 (digits t) 0) (skipDigits t)

/-- A number without sign. It begins with a zero only if that is its whole part. -/
inductive ReadsUnsigned : List Char → ℚ → List Char → Prop where
  | mk {t u r fraction : List Char} {n : ℤ} (hne : digits t ≠ [])
      (hzero : (digits t).head? = some '0' → digits t = ['0'])
      (hfraction : ReadsFraction (skipDigits t) fraction u) (hexponent : ReadsExponent u n r) :
      ReadsUnsigned t
        (Decimal.value ⟨Nat.ofDigitChars 10 (digits t ++ fraction) 0, n - fraction.length⟩) r

/-- A number, with a minus sign if it is below zero. -/
inductive ReadsNumber : List Char → ℚ → List Char → Prop where
  | plain {t r : List Char} {x : ℚ} (h : ReadsUnsigned t x r) : ReadsNumber t x r
  | minus {t r : List Char} {x : ℚ} (h : ReadsUnsigned t x r) : ReadsNumber ('-' :: t) (-x) r

/-- Fractions are read in one way. -/
theorem unambiguous_fraction : Unambiguous ReadsFraction := by
  intro t f f' r r' h h'
  cases h with
  | none hpoint =>
    cases h' with
    | none => exact ⟨rfl, rfl⟩
    | some => exact absurd rfl hpoint
  | some hne =>
    cases h' with
    | none hpoint => exact absurd rfl hpoint
    | some => exact ⟨rfl, rfl⟩

/-- Exponents are read in one way. -/
theorem unambiguous_exponent : Unambiguous ReadsExponent := by
  intro t n n' r r' h h'
  have hmark {c : Char} {u : List Char} (hc : c = 'e' ∨ c = 'E')
      (hsmall : (c :: u).head? ≠ some 'e') (hlarge : (c :: u).head? ≠ some 'E') : False := by
    rcases hc with rfl | rfl
    · exact hsmall rfl
    · exact hlarge rfl
  cases h with
  | none hsmall hlarge =>
    cases h' with
    | none => exact ⟨rfl, rfl⟩
    | unsigned hc | plus hc | minus hc => exact (hmark hc hsmall hlarge).elim
  | unsigned hc hne =>
    cases h' with
    | none hsmall hlarge => exact (hmark hc hsmall hlarge).elim
    | unsigned => exact ⟨rfl, rfl⟩
    | plus | minus => exact absurd rfl hne
  | plus hc =>
    cases h' with
    | none hsmall hlarge => exact (hmark hc hsmall hlarge).elim
    | unsigned _ hne => exact absurd rfl hne
    | plus => exact ⟨rfl, rfl⟩
  | minus hc =>
    cases h' with
    | none hsmall hlarge => exact (hmark hc hsmall hlarge).elim
    | unsigned _ hne => exact absurd rfl hne
    | minus => exact ⟨rfl, rfl⟩

/-- Numbers without sign are read in one way. -/
theorem unambiguous_unsigned : Unambiguous ReadsUnsigned := by
  intro t x x' r r' h h'
  cases h with
  | mk _ _ hfraction hexponent =>
    cases h' with
    | mk _ _ hfraction' hexponent' =>
      obtain ⟨rfl, rfl⟩ := unambiguous_fraction hfraction hfraction'
      obtain ⟨rfl, rfl⟩ := unambiguous_exponent hexponent hexponent'
      exact ⟨rfl, rfl⟩

/-- Numbers are read in one way. -/
theorem unambiguous_number : Unambiguous ReadsNumber := by
  intro t x x' r r' h h'
  have hminus {u w : List Char} {y : ℚ} (hu : ReadsUnsigned ('-' :: u) y w) : False := by
    cases hu with
    | mk hne => exact hne rfl
  cases h with
  | plain h =>
    cases h' with
    | plain h' => exact unambiguous_unsigned h h'
    | minus => exact (hminus h).elim
  | minus h =>
    cases h' with
    | plain h' => exact (hminus h').elim
    | minus h' =>
      obtain ⟨rfl, rfl⟩ := unambiguous_unsigned h h'
      exact ⟨rfl, rfl⟩

/-- The character that a letter behind a backslash stands for. -/
def unescape? (letter : Char) : Option Char :=
  match letter with
  | '"' => some '"'
  | '\\' => some '\\'
  | '/' => some '/'
  | 'b' => some '\x08'
  | 'f' => some '\x0c'
  | 'n' => some '\n'
  | 'r' => some '\r'
  | 't' => some '\t'
  | _ => none

/-- The number that four hexadecimal digits stand for. -/
def fourDigits? (a b c d : Char) : Option Nat := do
  let a ← Text.digitIn? 16 a
  let b ← Text.digitIn? 16 b
  let c ← Text.digitIn? 16 c
  let d ← Text.digitIn? 16 d
  some (((a * 16 + b) * 16 + c) * 16 + d)

/-- One character in quotation marks. Control characters are escaped, and so are quotation marks and
backslashes. Escapes by codes give a code point, or in a pair the two halves of a larger one. -/
inductive ReadsCharacter : List Char → Char → List Char → Prop where
  | plain {c : Char} {r : List Char} (hcontrol : 0x20 ≤ c.toNat) (hquote : c ≠ '"')
      (hslash : c ≠ '\\') : ReadsCharacter (c :: r) c r
  | short {letter c : Char} {r : List Char} (hc : unescape? letter = some c) :
      ReadsCharacter ('\\' :: letter :: r) c r
  | code {a b c d : Char} {r : List Char} {n : Nat} (hn : fourDigits? a b c d = some n)
      (hvalid : n.isValidChar) : ReadsCharacter ('\\' :: 'u' :: a :: b :: c :: d :: r) (.ofNat n) r
  | pair {a b c d a' b' c' d' : Char} {r : List Char} {high low : Nat}
      (hhigh : fourDigits? a b c d = some (0xD800 + high)) (hhigh' : high < 0x400)
      (hlow : fourDigits? a' b' c' d' = some (0xDC00 + low)) (hlow' : low < 0x400) :
      ReadsCharacter
        ('\\' :: 'u' :: a :: b :: c :: d :: '\\' :: 'u' :: a' :: b' :: c' :: d' :: r)
        (.ofNat (0x10000 + high * 0x400 + low)) r

/-- The characters behind a quotation mark, up to the one that closes the string. -/
inductive ReadsCharacters : List Char → List Char → List Char → Prop where
  | close {r : List Char} : ReadsCharacters ('"' :: r) [] r
  | more {t u r : List Char} {c : Char} {cs : List Char} (hc : ReadsCharacter t c u)
      (hmore : ReadsCharacters u cs r) : ReadsCharacters t (c :: cs) r

/-- Characters in quotation marks are read in one way. -/
theorem unambiguous_character : Unambiguous ReadsCharacter := by
  intro t x x' r r' h h'
  cases h with
  | plain _ _ hslash =>
    cases h' with
    | plain => exact ⟨rfl, rfl⟩
    | short | code | pair => exact absurd rfl hslash
  | short hc =>
    cases h' with
    | plain _ _ hslash => exact absurd rfl hslash
    | short hc' => exact ⟨Option.some.inj (hc.symm.trans hc'), rfl⟩
    | code | pair => cases hc
  | code hn hvalid =>
    cases h' with
    | plain _ _ hslash => exact absurd rfl hslash
    | short hc => cases hc
    | code hn' =>
      obtain rfl := Option.some.inj (hn.symm.trans hn')
      exact ⟨rfl, rfl⟩
    | pair hhigh hhigh' =>
      obtain rfl := Option.some.inj (hn.symm.trans hhigh)
      simp only [Nat.isValidChar] at hvalid
      omega
  | pair hhigh hhigh' hlow hlow' =>
    cases h' with
    | plain _ _ hslash => exact absurd rfl hslash
    | short hc => cases hc
    | code hn hvalid =>
      obtain rfl := Option.some.inj (hn.symm.trans hhigh)
      simp only [Nat.isValidChar] at hvalid
      omega
    | pair hhigh₂ _ hlow₂ _ =>
      have hhigh := Option.some.inj (hhigh.symm.trans hhigh₂)
      have hlow := Option.some.inj (hlow.symm.trans hlow₂)
      obtain rfl := Nat.add_left_cancel hhigh
      obtain rfl := Nat.add_left_cancel hlow
      exact ⟨rfl, rfl⟩

/-- The characters up to the closing quotation mark are read in one way. -/
theorem ReadsCharacters.unique {t cs cs' r r' : List Char} (h : ReadsCharacters t cs r) :
    ReadsCharacters t cs' r' → cs = cs' ∧ r = r' := by
  have hclosed {u w : List Char} {c : Char} (hc : ReadsCharacter ('"' :: u) c w) : False := by
    cases hc with
    | plain _ hquote => exact hquote rfl
  induction h generalizing cs' r' with
  | close =>
    intro h'
    cases h' with
    | close => exact ⟨rfl, rfl⟩
    | more hc => exact (hclosed hc).elim
  | more hc _ ih =>
    intro h'
    cases h' with
    | close => exact (hclosed hc).elim
    | more hc' hmore' =>
      obtain ⟨rfl, rfl⟩ := unambiguous_character hc hc'
      obtain ⟨rfl, rfl⟩ := ih hmore'
      exact ⟨rfl, rfl⟩

mutual

/-- A value, from its first character on. -/
inductive ReadsValue : List Char → Json → List Char → Prop where
  | null {r : List Char} : ReadsValue ('n' :: 'u' :: 'l' :: 'l' :: r) .null r
  | yes {r : List Char} : ReadsValue ('t' :: 'r' :: 'u' :: 'e' :: r) (.boolean true) r
  | no {r : List Char} : ReadsValue ('f' :: 'a' :: 'l' :: 's' :: 'e' :: r) (.boolean false) r
  | number {t r : List Char} {x : ℚ} (h : ReadsNumber t x r) : ReadsValue t (.number x) r
  | string {t r cs : List Char} (h : ReadsCharacters t cs r) : ReadsValue ('"' :: t) (.string cs) r
  | array {t r : List Char} {vs : List Json} (h : ReadsItems t vs r) :
      ReadsValue ('[' :: t) (.array vs) r
  | object {t r : List Char} {ms : List (List Char × Json)} (h : ReadsMembers t ms r) :
      ReadsValue ('\x7b' :: t) (.object ms) r

/-- What follows an opening bracket, up to and with the closing one. -/
inductive ReadsItems : List Char → List Json → List Char → Prop where
  | none {t r : List Char} (h : skipBlank t = ']' :: r) : ReadsItems t [] r
  | some {t u r : List Char} {v : Json} {vs : List Json} (hv : ReadsValue (skipBlank t) v u)
      (hmore : ReadsMoreItems u vs r) : ReadsItems t (v :: vs) r

/-- What follows an item, up to and with the closing bracket. -/
inductive ReadsMoreItems : List Char → List Json → List Char → Prop where
  | close {t r : List Char} (h : skipBlank t = ']' :: r) : ReadsMoreItems t [] r
  | comma {t u w r : List Char} {v : Json} {vs : List Json} (h : skipBlank t = ',' :: u)
      (hv : ReadsValue (skipBlank u) v w) (hmore : ReadsMoreItems w vs r) :
      ReadsMoreItems t (v :: vs) r

/-- A name in quotation marks, a colon, and a value. -/
inductive ReadsMember : List Char → List Char × Json → List Char → Prop where
  | mk {t u w r name : List Char} {v : Json} (hname : ReadsCharacters t name u)
      (h : skipBlank u = ':' :: w) (hv : ReadsValue (skipBlank w) v r) :
      ReadsMember ('"' :: t) (name, v) r

/-- What follows an opening brace, up to and with the closing one. -/
inductive ReadsMembers : List Char → List (List Char × Json) → List Char → Prop where
  | none {t r : List Char} (h : skipBlank t = '\x7d' :: r) : ReadsMembers t [] r
  | some {t u r : List Char} {m : List Char × Json} {ms : List (List Char × Json)}
      (hm : ReadsMember (skipBlank t) m u) (hmore : ReadsMoreMembers u ms r) :
      ReadsMembers t (m :: ms) r

/-- What follows a member, up to and with the closing brace. -/
inductive ReadsMoreMembers : List Char → List (List Char × Json) → List Char → Prop where
  | close {t r : List Char} (h : skipBlank t = '\x7d' :: r) : ReadsMoreMembers t [] r
  | comma {t u w r : List Char} {m : List Char × Json} {ms : List (List Char × Json)}
      (h : skipBlank t = ',' :: u) (hm : ReadsMember (skipBlank u) m w)
      (hmore : ReadsMoreMembers w ms r) : ReadsMoreMembers t (m :: ms) r

end

/-- A number begins with a minus sign or a digit. -/
theorem ReadsNumber.head {c : Char} {t r : List Char} {x : ℚ} (h : ReadsNumber (c :: t) x r) :
    c = '-' ∨ c.isDigit = true := by
  cases h with
  | minus => exact .inl rfl
  | plain h =>
    cases h with
    | mk hne =>
      by_contra hc
      rw [not_or] at hc
      exact hne (List.takeWhile_cons_of_neg hc.2)

/-- No value begins with a closing bracket. -/
theorem not_readsValue_bracket {t r : List Char} {v : Json} : ¬ ReadsValue (']' :: t) v r := by
  intro h
  cases h with
  | number h => exact absurd h.head (by decide)

mutual

/-- A text begins with one value at most, which ends at one place. The rules are told apart by the
first character. -/
theorem ReadsValue.unique {t r : List Char} {v : Json} : ReadsValue t v r →
    ∀ {v' : Json} {r' : List Char}, ReadsValue t v' r' → v = v' ∧ r = r'
  | .null, _, _, h' => by
    cases h' with
    | null => exact ⟨rfl, rfl⟩
    | number h' => exact absurd h'.head (by decide)
  | .yes, _, _, h' => by
    cases h' with
    | yes => exact ⟨rfl, rfl⟩
    | number h' => exact absurd h'.head (by decide)
  | .no, _, _, h' => by
    cases h' with
    | no => exact ⟨rfl, rfl⟩
    | number h' => exact absurd h'.head (by decide)
  | .number h, _, _, h' => by
    cases h' with
    | number h' =>
      obtain ⟨rfl, rfl⟩ := unambiguous_number h h'
      exact ⟨rfl, rfl⟩
    | _ => exact absurd h.head (by decide)
  | .string h, _, _, h' => by
    cases h' with
    | string h' =>
      obtain ⟨rfl, rfl⟩ := h.unique h'
      exact ⟨rfl, rfl⟩
    | number h' => exact absurd h'.head (by decide)
  | .array h, _, _, h' => by
    cases h' with
    | array h' =>
      obtain ⟨rfl, rfl⟩ := h.unique h'
      exact ⟨rfl, rfl⟩
    | number h' => exact absurd h'.head (by decide)
  | .object h, _, _, h' => by
    cases h' with
    | object h' =>
      obtain ⟨rfl, rfl⟩ := h.unique h'
      exact ⟨rfl, rfl⟩
    | number h' => exact absurd h'.head (by decide)
termination_by structural h => h

/-- Items are read in one way. -/
theorem ReadsItems.unique {t r : List Char} {vs : List Json} : ReadsItems t vs r →
    ∀ {vs' : List Json} {r' : List Char}, ReadsItems t vs' r' → vs = vs' ∧ r = r'
  | .none h, _, _, h' => by
    cases h' with
    | none h' => exact ⟨rfl, (List.cons.inj (h.symm.trans h')).2⟩
    | some hv' => exact absurd (h ▸ hv') not_readsValue_bracket
  | .some hv hmore, _, _, h' => by
    cases h' with
    | none h' => exact absurd (h' ▸ hv) not_readsValue_bracket
    | some hv' hmore' =>
      obtain ⟨rfl, rfl⟩ := hv.unique hv'
      obtain ⟨rfl, rfl⟩ := hmore.unique hmore'
      exact ⟨rfl, rfl⟩
termination_by structural h => h

/-- Items behind others are read in one way. -/
theorem ReadsMoreItems.unique {t r : List Char} {vs : List Json} : ReadsMoreItems t vs r →
    ∀ {vs' : List Json} {r' : List Char}, ReadsMoreItems t vs' r' → vs = vs' ∧ r = r'
  | .close h, _, _, h' => by
    cases h' with
    | close h' => exact ⟨rfl, (List.cons.inj (h.symm.trans h')).2⟩
    | comma h' => exact absurd (List.cons.inj (h.symm.trans h')).1 (by decide)
  | .comma h hv hmore, _, _, h' => by
    cases h' with
    | close h' => exact absurd (List.cons.inj (h.symm.trans h')).1 (by decide)
    | comma h' hv' hmore' =>
      obtain rfl := (List.cons.inj (h.symm.trans h')).2
      obtain ⟨rfl, rfl⟩ := hv.unique hv'
      obtain ⟨rfl, rfl⟩ := hmore.unique hmore'
      exact ⟨rfl, rfl⟩
termination_by structural h => h

/-- A member is read in one way. -/
theorem ReadsMember.unique {t r : List Char} {m : List Char × Json} : ReadsMember t m r →
    ∀ {m' : List Char × Json} {r' : List Char}, ReadsMember t m' r' → m = m' ∧ r = r'
  | .mk hname h hv, _, _, h' => by
    cases h' with
    | mk hname' h' hv' =>
      obtain ⟨rfl, rfl⟩ := hname.unique hname'
      obtain rfl := (List.cons.inj (h.symm.trans h')).2
      obtain ⟨rfl, rfl⟩ := hv.unique hv'
      exact ⟨rfl, rfl⟩
termination_by structural h => h

/-- Members are read in one way. -/
theorem ReadsMembers.unique {t r : List Char} {ms : List (List Char × Json)} : ReadsMembers t ms r →
    ∀ {ms' : List (List Char × Json)} {r' : List Char}, ReadsMembers t ms' r' → ms = ms' ∧ r = r'
  | .none h, _, _, h' => by
    cases h' with
    | none h' => exact ⟨rfl, (List.cons.inj (h.symm.trans h')).2⟩
    | some hm' =>
      rw [h] at hm'
      cases hm'
  | .some hm hmore, _, _, h' => by
    cases h' with
    | none h' =>
      rw [h'] at hm
      cases hm
    | some hm' hmore' =>
      obtain ⟨rfl, rfl⟩ := hm.unique hm'
      obtain ⟨rfl, rfl⟩ := hmore.unique hmore'
      exact ⟨rfl, rfl⟩
termination_by structural h => h

/-- Members behind others are read in one way. -/
theorem ReadsMoreMembers.unique {t r : List Char} {ms : List (List Char × Json)} :
    ReadsMoreMembers t ms r → ∀ {ms' : List (List Char × Json)} {r' : List Char},
      ReadsMoreMembers t ms' r' → ms = ms' ∧ r = r'
  | .close h, _, _, h' => by
    cases h' with
    | close h' => exact ⟨rfl, (List.cons.inj (h.symm.trans h')).2⟩
    | comma h' => exact absurd (List.cons.inj (h.symm.trans h')).1 (by decide)
  | .comma h hm hmore, _, _, h' => by
    cases h' with
    | close h' => exact absurd (List.cons.inj (h.symm.trans h')).1 (by decide)
    | comma h' hm' hmore' =>
      obtain rfl := (List.cons.inj (h.symm.trans h')).2
      obtain ⟨rfl, rfl⟩ := hm.unique hm'
      obtain ⟨rfl, rfl⟩ := hmore.unique hmore'
      exact ⟨rfl, rfl⟩
termination_by structural h => h

end

/-- A text in UTF-8 is a value with nothing but white space around it. -/
def Says (t : Text) (v : Json) : Prop :=
  ∃ cs r, t = Text.ofChars cs ∧ ReadsValue (skipBlank cs) v r ∧ skipBlank r = []

/-- A text says one thing at most. -/
theorem Says.unique {t : Text} {v v' : Json} (h : Says t v) (h' : Says t v') : v = v' := by
  obtain ⟨cs, r, rfl, hv, -⟩ := h
  obtain ⟨cs', r', hcs, hv', -⟩ := h'
  have hchars : cs = cs' := by rw [← Text.chars_ofChars cs, hcs, Text.chars_ofChars]
  rw [hchars] at hv
  exact (hv.unique hv').1

end Json

end TinyScript
