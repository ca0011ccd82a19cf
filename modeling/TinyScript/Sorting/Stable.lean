import TinyScript.Sorting.Query

/-!
# Stable sorting

Blocks of twenty elements are sorted by insertion. Then neighbouring blocks are merged until one
is left. A merge finds, by a binary search from the middle outwards, how much of the first block
changes places with how much of the second, and merges the two halves that result.

Which elements are compared, and in which order, is part of what the sort does, since a comparison
can print, fail, or answer without rhyme or reason. The elements are kept in lists, so the swaps
that bring them into their places are left out.
-/

namespace TinyScript.Sorting

variable {α : Type}

/-- How many elements are sorted by insertion at a time. -/
def blockSize : Nat := 20

/-- Insert an element into a sorted list that is held in reverse, asking from the greatest down. The
elements it comes before are held in `passed`, the last one first. -/
def insertReversed (x : α) (passed : List α) : List α → Query α (List α)
  | [] => pure (passed.reverse ++ [x])
  | y :: rest => do
    if ← Query.before x y then insertReversed x (y :: passed) rest
    else pure (passed.reverse ++ x :: y :: rest)

/-- Insert elements one by one into a sorted list that is held in reverse. -/
def insertAll : List α → List α → Query α (List α)
  | sorted, [] => pure sorted
  | sorted, x :: rest => do
    let sorted ← insertReversed x [] sorted
    insertAll sorted rest

/-- Sort by insertion. -/
def insertionSort (xs : List α) : Query α (List α) := do
  let sorted ← insertAll [] xs
  pure sorted.reverse

/-- The least number from `low` up to `high` whose question is answered yes, where the answers go
from no to yes; the first argument bounds the number of questions. -/
def search (question : Nat → Query α Bool) : Nat → Nat → Nat → Query α Nat
  | 0, low, _ => pure low
  | n + 1, low, high =>
    if low < high then do
      let middle := (low + high) / 2
      if ← question middle then search question n low middle
      else search question n (middle + 1) high
    else pure low

/-- Ask whether the element at one place comes before the element at another one. -/
def compareAt (xs : Array α) (i j : Nat) : Query α Bool :=
  match xs[i]?, xs[j]? with
  | some x, some y => Query.before x y
  | _, _ => pure false

/-- The answer the other way round. -/
def negated (q : Query α Bool) : Query α Bool := do
  let answer ← q
  pure (!answer)

/-- Merge two sorted lists, comparing places in the two of them together; the number bounds the
nesting. -/
def mergeBy (compare : Array α → Nat → Nat → Query α Bool) :
    Nat → List α → List α → Query α (List α)
  | 0, xs, ys => pure (xs ++ ys)
  | n + 1, xs, ys =>
    let all := (xs ++ ys).toArray
    let m := xs.length
    let size := all.size
    if xs.isEmpty || ys.isEmpty then pure (xs ++ ys)
    else if m = 1 then do
      let i ← search (fun i => negated (compare all i 0)) size m size
      pure (ys.take (i - m) ++ xs ++ ys.drop (i - m))
    else if size = m + 1 then do
      let i ← search (fun i => compare all m i) size 0 m
      pure (xs.take i ++ ys ++ xs.drop i)
    else do
      let half := size / 2
      let sum := half + m
      let start ← search (fun c => compare all (sum - 1 - c) c) size
        (if half < m then sum - size else 0) (if half < m then half else m)
      let stop := sum - start
      let left ← mergeBy compare n (xs.take start) (ys.take (stop - m))
      let right ← mergeBy compare n (xs.drop start) (ys.drop (stop - m))
      pure (left ++ right)

/-- Cut a list into blocks and sort each by insertion. The first argument bounds their number, and
`done` holds the sorted ones, the last one first. -/
def sortBlocks (done : List (List α)) : Nat → List α → Query α (List (List α))
  | 0, _ => pure done.reverse
  | n + 1, xs =>
    if xs.isEmpty then pure done.reverse
    else do
      let block ← insertionSort (xs.take blockSize)
      sortBlocks (block :: done) n (xs.drop blockSize)

/-- Merge blocks two by two; `done` holds the merged ones, the last one first. -/
def mergePairsBy (compare : Array α → Nat → Nat → Query α Bool) (done : List (List α)) :
    List (List α) → Query α (List (List α))
  | a :: b :: rest => do
    let ab ← mergeBy compare (a.length + b.length) a b
    mergePairsBy compare (ab :: done) rest
  | rest => pure (done.reverse ++ rest)

/-- Merge the blocks until one is left; the number bounds the number of rounds. -/
def mergeAllBy (compare : Array α → Nat → Nat → Query α Bool) :
    Nat → List (List α) → Query α (List α)
  | 0, bs => pure bs.flatten
  | n + 1, bs =>
    if bs.length ≤ 1 then pure bs.flatten
    else do
      let bs ← mergePairsBy compare [] bs
      mergeAllBy compare n bs

/-- Sort a list, with a way to compare places where blocks are merged. -/
def sortBy (compare : Array α → Nat → Nat → Query α Bool) (xs : List α) : Query α (List α) := do
  let bs ← sortBlocks [] xs.length xs
  mergeAllBy compare bs.length bs

/-- Sort a list, asking for comparisons. -/
def sort (xs : List α) : Query α (List α) := sortBy compareAt xs

end TinyScript.Sorting
