import Std.Data.TreeSet
import TinyScript.Text.Basic

/-!
# The order of texts

Texts are ordered bytewise: the first byte that differs decides, and a proper beginning comes
first. This is the lexicographic order of their bytes, so it is total and only equal texts are
alike in it; texts can be the keys of a tree.
-/

namespace TinyScript.Text

/-- Compare two texts from an offset on, where they agree before it. -/
def orderFrom (s t : ByteArray) (i : Nat) : Ordering :=
  if hs : i < s.size then
    if ht : i < t.size then
      if s[i] < t[i] then .lt else if s[i] = t[i] then orderFrom s t (i + 1) else .gt
    else .gt
  else if i < t.size then .lt
  else .eq
termination_by s.size - i

/-- Compare two texts. -/
def order (s t : Text) : Ordering := orderFrom s.data t.data 0

/-- Comparing from an offset on is comparing the bytes there lexicographically. -/
theorem orderFrom_eq (s t : ByteArray) (i : Nat) :
    orderFrom s t i =
      List.compareLex compare (s.data.toList.drop i) (t.data.toList.drop i) := by
  have hdrop : ∀ (a : ByteArray) (j : Nat) (h : j < a.size),
      a.data.toList.drop j = a[j] :: a.data.toList.drop (j + 1) := fun a j h => by
    rw [List.drop_eq_getElem_cons (by simpa using h)]
    simp [ByteArray.getElem_eq_getElem_data]
  have hend : ∀ (a : ByteArray) (j : Nat), ¬ j < a.size → a.data.toList.drop j = [] :=
    fun a j h => List.drop_eq_nil_iff.2 (by simpa using h)
  fun_induction orderFrom s t i with
  | case1 i hs ht h =>
    rw [hdrop s i hs, hdrop t i ht, List.compareLex_cons_cons]
    simp [compare, compareOfLessAndEq, h]
  | case2 i hs ht h e ih =>
    rw [ih, hdrop s i hs, hdrop t i ht, List.compareLex_cons_cons]
    simp [compare, compareOfLessAndEq, e]
  | case3 i hs ht h e =>
    rw [hdrop s i hs, hdrop t i ht, List.compareLex_cons_cons]
    simp [compare, compareOfLessAndEq, h, e]
  | case4 i hs ht => rw [hdrop s i hs, hend t i ht]; rfl
  | case5 i hs ht => rw [hend s i hs, hdrop t i ht]; rfl
  | case6 i hs ht => rw [hend s i hs, hend t i ht]; rfl

/-- The order of texts is the lexicographic order of their bytes. -/
theorem order_eq (s t : Text) : s.order t = List.compareLex compare s.bytes t.bytes := by
  simp [order, orderFrom_eq, bytes]

instance : Std.TransCmp order where
  eq_swap {s t} := by
    rw [order_eq, order_eq]
    exact Std.OrientedCmp.eq_swap
  isLE_trans {s t u} hst htu := by
    rw [order_eq] at *
    exact Std.TransCmp.isLE_trans hst htu

instance : Std.LawfulEqCmp order where
  compare_self {s} := by
    rw [order_eq]
    exact Std.ReflCmp.compare_self
  eq_of_compare {s t} h := by
    rw [order_eq] at h
    exact Text.ext (Std.LawfulEqCmp.eq_of_compare h)

/-- Only equal texts are alike in the order. -/
@[simp] theorem order_eq_eq_iff (s t : Text) : s.order t = .eq ↔ s = t :=
  Std.LawfulEqCmp.compare_eq_iff_eq

/-- Whether one text comes before another. -/
def less (s t : Text) : Bool := s.order t == .lt

/-- The texts of a list in increasing order, each once. -/
def sorted (ts : List Text) : List Text := (Std.TreeSet.ofList ts order).toList

/-- Sorting keeps exactly the texts that are there. -/
theorem mem_sorted {ts : List Text} {t : Text} : t ∈ sorted ts ↔ t ∈ ts := by
  simp [sorted, Std.TreeSet.mem_toList, Std.TreeSet.mem_ofList]

/-- Sorted texts come once each. -/
theorem nodup_sorted (ts : List Text) : (sorted ts).Nodup := by
  refine (Std.TreeSet.distinct_toList (t := Std.TreeSet.ofList ts order)).imp ?_
  intro a b hab heq
  exact hab ((order_eq_eq_iff a b).mpr heq)

/-- The texts of an increasing list that begin with a given one. They stand together, so looking for
them starts at the first text that is not below the given one and stops at the first that does not
begin with it. -/
def extensions (start : Text) (ts : List Text) : List Text :=
  (ts.dropWhile fun t => t.less start).takeWhile fun t => t.startsWith start

end TinyScript.Text
