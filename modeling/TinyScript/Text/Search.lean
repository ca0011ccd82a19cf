import TinyScript.Text.Character

/-!
# Searching texts

Occurrences are sought bytewise, from left to right. Splitting cuts at occurrences that do not
overlap; an empty separator cuts between characters.

A window as long as the text sought moves over the other text. A number is kept for the window,
which changes by what enters and what leaves; only where it is the number of the text sought are
the two compared. Equal bytes have equal numbers, so nothing is missed, and what is compared and
equal is an occurrence.
-/

namespace TinyScript.Text

/-- The factor by which a byte counts more than the one behind it. -/
def weight : UInt64 := 0x100000001B3

/-- The number of a window with one more byte at its end. -/
def weigh (h : UInt64) (b : UInt8) : UInt64 := h * weight + b.toUInt64

/-- The number of some bytes. -/
def fingerprint (bs : List UInt8) : UInt64 := bs.foldl weigh 0

/-- What a byte counts for when it leaves at the front of as many bytes as there are here. -/
def leaving (bs : List UInt8) : UInt64 := bs.foldl (fun w _ => w * weight) 1

/-- The offset of the first occurrence from an offset `i` on. The number of the text sought is
`target`, that of the window at `i` is `h`, and `w` is what a byte that leaves counts for. -/
def scan (t needle : Text) (target w : UInt64) (i : Nat) (h : UInt64) : Option Nat :=
  if h = target ∧ t.cut i (i + needle.size) = needle then some i
  else if hi : i + needle.size < t.data.size then
    scan t needle target w (i + 1) (weigh h t.data[i + needle.size] - t.data[i].toUInt64 * w)
  else none
termination_by t.data.size - i

/-- The offset of the first occurrence of one text in another from an offset on. -/
def findFrom (t needle : Text) (i : Nat) : Option Nat :=
  scan t needle (fingerprint needle.bytes) (leaving needle.bytes) i
    (fingerprint (t.cut i (i + needle.size)).bytes)

/-- The byte offset of the first occurrence of one text in another. -/
def find? (t needle : Text) : Option Nat := t.findFrom needle 0

/-- Whether one text occurs in another at an offset. -/
def OccursAt (t needle : Text) (i : Nat) : Prop := t.cut i (i + needle.size) = needle

/-- What bytes in front count for is multiplied by the weight of every byte behind them. -/
theorem foldl_mul_weight (bs : List UInt8) (a : UInt64) :
    bs.foldl (fun w _ => w * weight) a = a * leaving bs := by
  induction bs generalizing a with
  | nil => simp [leaving]
  | cons b bs ih =>
    have h1 := ih (a * weight)
    have h2 := ih (1 * weight)
    simp only [leaving, List.foldl_cons] at h1 h2 ⊢
    grind

/-- Bytes behind a number add theirs to what it counts for in front of them. -/
theorem foldl_weigh (bs : List UInt8) (h : UInt64) :
    bs.foldl weigh h = h * leaving bs + fingerprint bs := by
  induction bs generalizing h with
  | nil => simp [fingerprint, leaving]
  | cons b bs ih =>
    have h1 := ih (weigh h b)
    have h2 := ih (weigh 0 b)
    have h3 := foldl_mul_weight bs (1 * weight)
    simp only [fingerprint, leaving, List.foldl_cons] at h1 h2 h3 ⊢
    rw [h1, h2, h3]
    simp only [weigh]
    grind

/-- The number of a window that moves on by one byte. -/
theorem fingerprint_move (a b : UInt8) (bs : List UInt8) :
    fingerprint (bs ++ [b]) =
      weigh (fingerprint (a :: bs)) b - a.toUInt64 * leaving (a :: bs) := by
  have h1 : fingerprint (bs ++ [b]) = weigh (fingerprint bs) b := by
    simp [fingerprint, List.foldl_append]
  have h2 : fingerprint (a :: bs) = weigh 0 a * leaving bs + fingerprint bs := by
    simpa [fingerprint] using foldl_weigh bs (weigh 0 a)
  have h3 : leaving (a :: bs) = weight * leaving bs := by
    simpa [leaving] using foldl_mul_weight bs weight
  rw [h1, h2, h3]
  simp only [weigh]
  grind

/-- An occurrence ends within the text, unless nothing is sought. -/
theorem OccursAt.le_size {t needle : Text} {i : Nat} (h : OccursAt t needle i)
    (hn : 0 < needle.size) : i + needle.size ≤ t.size := by
  have := congrArg (fun u => u.bytes.length) h
  simp only [bytes_cut, List.length_drop, List.length_take, ← size_eq_length] at this
  omega

/-- The number of the window at the next offset. -/
theorem fingerprint_cut_succ (t : Text) {i m : Nat} (hi : i + m < t.data.size) (hm : 0 < m) :
    fingerprint (t.cut (i + 1) (i + 1 + m)).bytes =
      weigh (fingerprint (t.cut i (i + m)).bytes) t.data[i + m] -
        t.data[i].toUInt64 * leaving (t.cut i (i + m)).bytes := by
  have hlen : t.bytes.length = t.data.size := rfl
  have hget : ∀ (j : Nat) (h : j < t.data.size), t.bytes[j]? = some t.data[j] := fun j h => by
    simp [bytes, ByteArray.getElem_eq_getElem_data, h]
  have hnew : (t.cut (i + 1) (i + 1 + m)).bytes =
      (t.cut (i + 1) (i + m)).bytes ++ [t.data[i + m]] := by
    simp only [bytes_cut]
    rw [show i + 1 + m = i + m + 1 by omega, List.take_add_one, hget _ hi,
      List.drop_append_of_le_length (by simp; omega)]
    rfl
  have hold : (t.cut i (i + m)).bytes = t.data[i] :: (t.cut (i + 1) (i + m)).bytes := by
    simp only [bytes_cut]
    have h : i < (t.bytes.take (i + m)).length := by simp; omega
    rw [List.drop_eq_getElem_cons h]
    congr 1
    have := hget i (by omega)
    rw [List.getElem?_eq_getElem (by omega)] at this
    simpa using this
  rw [hnew, hold, fingerprint_move]

/-- Where windows are as long as the text sought, the same leaves at their front. -/
theorem leaving_eq_of_length_eq {as bs : List UInt8} (h : as.length = bs.length) :
    leaving as = leaving bs := by
  induction as generalizing bs with
  | nil => rw [List.eq_nil_of_length_eq_zero h.symm]
  | cons a as ih =>
    cases bs with
    | nil => simp at h
    | cons b bs =>
      have h1 := foldl_mul_weight as (1 * weight)
      have h2 := foldl_mul_weight bs (1 * weight)
      have := ih (by simpa using h)
      simp only [leaving, List.foldl_cons] at h1 h2 this ⊢
      grind

/-- What is found is the first occurrence from the offset on. -/
theorem scan_eq_some_iff {t needle : Text} {i j : Nat} {h : UInt64}
    (hh : h = fingerprint (t.cut i (i + needle.size)).bytes) :
    scan t needle (fingerprint needle.bytes) (leaving needle.bytes) i h = some j ↔
      i ≤ j ∧ OccursAt t needle j ∧ ∀ k, i ≤ k → k < j → ¬ OccursAt t needle k := by
  induction hm : t.data.size - i using Nat.strongRecOn generalizing i h with
  | _ m ih =>
    unfold scan
    by_cases hat : OccursAt t needle i
    · rw [if_pos ⟨by rw [hh, show t.cut i (i + needle.size) = needle from hat], hat⟩]
      constructor
      · intro e
        cases e
        exact ⟨Nat.le_refl _, hat, fun k h1 h2 => absurd h2 (by omega)⟩
      · rintro ⟨hij, -, hall⟩
        by_cases hlt : i < j
        · exact absurd hat (hall i (Nat.le_refl _) hlt)
        · rw [show i = j by omega]
    · have hpos : 0 < needle.size := by
        rcases Nat.eq_zero_or_pos needle.size with h0 | h0
        · refine absurd (Text.ext ?_) hat
          have : needle.bytes = [] := List.eq_nil_of_length_eq_zero h0
          simp [this, h0]
        · exact h0
      rw [if_neg fun hc => hat hc.2]
      have hnext : (i ≤ j ∧ OccursAt t needle j ∧ ∀ k, i ≤ k → k < j → ¬ OccursAt t needle k) ↔
          i + 1 ≤ j ∧ OccursAt t needle j ∧ ∀ k, i + 1 ≤ k → k < j → ¬ OccursAt t needle k := by
        constructor
        · rintro ⟨h1, h2, h3⟩
          have : i ≠ j := fun e => hat (e ▸ h2)
          exact ⟨by omega, h2, fun k hk => h3 k (by omega)⟩
        · rintro ⟨h1, h2, h3⟩
          refine ⟨by omega, h2, fun k hk hkj => ?_⟩
          by_cases hik : k = i
          · exact hik ▸ hat
          · exact h3 k (by omega) hkj
      by_cases hi : i + needle.size < t.data.size
      · rw [dif_pos hi, hnext]
        refine ih (t.data.size - (i + 1)) (by omega) ?_ rfl
        rw [fingerprint_cut_succ t hi hpos, hh]
        congr 2
        refine (leaving_eq_of_length_eq ?_).symm
        have hlen : t.bytes.length = t.data.size := rfl
        rw [bytes_cut, List.length_drop, List.length_take, ← size_eq_length needle]
        omega
      · rw [dif_neg hi, hnext]
        simp only [reduceCtorEq, false_iff]
        rintro ⟨h1, h2, -⟩
        have := h2.le_size hpos
        have : t.size = t.data.size := rfl
        omega

/-- What is found from an offset on is the first occurrence there. -/
theorem findFrom_eq_some_iff {t needle : Text} {i j : Nat} :
    t.findFrom needle i = some j ↔
      i ≤ j ∧ OccursAt t needle j ∧ ∀ k, i ≤ k → k < j → ¬ OccursAt t needle k :=
  scan_eq_some_iff rfl

/-- Put a text in place of the first occurrence of another one. -/
def replaceFirst (t needle replacement : Text) : Text :=
  match t.find? needle with
  | some i => t.take i ++ replacement ++ t.drop (i + needle.size)
  | none => t

/-- Cut a text from an offset on at a separator that is not empty; `done` holds the finished pieces,
newest first. -/
def splitFrom (t sep : Text) (hsep : 0 < sep.size) (i : Nat) (done : List Text) : List Text :=
  match _found : t.findFrom sep i with
  | none => (t.drop i :: done).reverse
  | some j => splitFrom t sep hsep (j + sep.size) (t.cut i j :: done)
termination_by t.size - i
decreasing_by
  have hfound := findFrom_eq_some_iff.1 _found
  have := hfound.2.1.le_size hsep
  have := hfound.1
  omega

/-- The pieces of a text between the occurrences of a separator, or its characters if the
separator is empty. -/
def split (t sep : Text) : List Text :=
  if h : 0 < sep.size then splitFrom t sep h 0 [] else t.characters.map fun c => ofBytes c.bytes

/-- A text a number of times: half as many times, twice, and once more if the number is odd. -/
def times (n : Nat) (t : Text) : Text :=
  if n = 0 then empty
  else
    let half := times (n / 2) t
    if n % 2 = 0 then half ++ half else (half ++ half) ++ t
termination_by n
decreasing_by omega

end TinyScript.Text
