/-!
# Ranges of code points

Properties of characters are given as ranges of code points, both ends included, in increasing
order. So only the last range that begins at or below a code point can hold it, and that one is
found by halving.
-/

namespace TinyScript.Text

variable {α : Type}

/-- The last element with a key of at most `n`, where the elements before `low` have such keys and
those from `high` on have not. -/
@[specialize] def lastBetween (key : α → Nat) (xs : Array α) (n low high : Nat) : Option α :=
  if h : low < high ∧ high ≤ xs.size then
    have hm : (low + high) / 2 < xs.size := by omega
    if key xs[(low + high) / 2] ≤ n then lastBetween key xs n ((low + high) / 2 + 1) high
    else lastBetween key xs n low ((low + high) / 2)
  else if 0 < low then xs[low - 1]? else none
termination_by high - low

/-- The last element with a key of at most `n`, where keys increase. -/
@[inline] def lastAtMost (key : α → Nat) (xs : Array α) (n : Nat) : Option α :=
  lastBetween key xs n 0 xs.size

/-- Whether a code point lies in one of some ranges. -/
def inRanges (ranges : Array (Nat × Nat)) (n : Nat) : Bool :=
  match lastAtMost Prod.fst ranges n with
  | some r => n ≤ r.2
  | none => false

end TinyScript.Text
