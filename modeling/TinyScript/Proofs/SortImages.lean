import TinyScript.Proofs.Permutation

/-!
# Sorting the image of a list

Sorting looks at elements through its questions only. So it asks the same questions about the images
of elements under a function, in the same order, and its result is the image of the result.
-/

namespace TinyScript

variable {α α' β β' γ γ' : Type}

namespace Query

/-- A computation with other elements in its questions and its results. -/
def image (f : α → α') (g : β → β') : Query α β → Query α' β'
  | done b => done (g b)
  | ask x y next => ask (f x) (f y) fun answer => (next answer).image f g

variable {f : α → α'} {g : β → β'} {h : γ → γ'}

/-- A computation without questions only has its result replaced. -/
@[simp] theorem image_pure (b : β) : (pure b : Query α β).image f g = pure (g b) := rfl

/-- The image of a computation in two parts is made of the images of the parts. -/
theorem image_bind {q : Query α β} {q' : Query α' β'} {next : β → Query α γ}
    {next' : β' → Query α' γ'} (hq : q.image f g = q')
    (hnext : ∀ b, (next b).image f h = next' (g b)) :
    (q >>= next).image f h = q' >>= next' := by
  subst hq
  induction q with
  | done b => exact hnext b
  | ask x y more ih => exact congrArg (ask (f x) (f y)) (funext ih)

/-- Answers that do not tell elements from their images lead to the image of the result. -/
theorem run_image {ε : Type} {less : α → α → Except ε Bool} {less' : α' → α' → Except ε Bool}
    (hless : ∀ x y, less' (f x) (f y) = less x y) (q : Query α β) :
    (q.image f g).run less' = (q.run less).map g := by
  induction q with
  | done b => rfl
  | ask x y next ih =>
    rw [image, run, run, hless]
    cases less x y with
    | error e => rfl
    | ok answer => exact ih answer

end Query

namespace Sorting

open Query

variable (f : α → α')

/-- A single question is asked about the images. -/
theorem image_before (x y : α) : (before x y).image f id = before (f x) (f y) := rfl

/-- Inserting an element commutes with taking images. -/
theorem image_insertReversed (x : α) (passed rest : List α) :
    (insertReversed x passed rest).image f (List.map f) =
      insertReversed (f x) (passed.map f) (rest.map f) := by
  induction rest generalizing passed with
  | nil => simp [insertReversed]
  | cons y rest ih =>
    refine image_bind (image_before f x y) fun answer => ?_
    cases answer with
    | true => exact ih (y :: passed)
    | false => simp

/-- Inserting some elements commutes with taking images. -/
theorem image_insertAll (sorted xs : List α) :
    (insertAll sorted xs).image f (List.map f) = insertAll (sorted.map f) (xs.map f) := by
  induction xs generalizing sorted with
  | nil => rfl
  | cons x xs ih => exact image_bind (image_insertReversed f x [] sorted) ih

/-- Sorting by insertion commutes with taking images. -/
theorem image_insertionSort (xs : List α) :
    (insertionSort xs).image f (List.map f) = insertionSort (xs.map f) := by
  refine image_bind (image_insertAll f [] xs) fun sorted => ?_
  rw [image_pure, List.map_reverse]

/-- A binary search commutes with taking images, if its questions do. -/
theorem image_search {question : Nat → Query α Bool} {question' : Nat → Query α' Bool}
    (hquestion : ∀ i, (question i).image f id = question' i) (n low high : Nat) :
    (search question n low high).image f id = search question' n low high := by
  induction n generalizing low high with
  | zero => rfl
  | succ n ih =>
    rw [search, search]
    split_ifs
    · refine image_bind (hquestion _) fun answer => ?_
      cases answer with
      | true => exact ih _ _
      | false => exact ih _ _
    · rfl

/-- Comparing two places commutes with taking images. -/
theorem image_compareAt (xs : List α) (i j : Nat) :
    (compareAt xs.toArray i j).image f id = compareAt (xs.map f).toArray i j := by
  simp only [compareAt, List.getElem?_toArray, List.getElem?_map]
  cases xs[i]? with
  | none => rfl
  | some x => cases xs[j]? <;> rfl

/-- The opposite answer commutes with taking images. -/
theorem image_negated (q : Query α Bool) : (negated q).image f id = negated (q.image f id) :=
  image_bind rfl fun _ => rfl

/-- Merging commutes with taking images. -/
theorem image_merge (n : Nat) (xs ys : List α) :
    (mergeBy compareAt n xs ys).image f (List.map f) =
      mergeBy compareAt n (xs.map f) (ys.map f) := by
  induction n generalizing xs ys with
  | zero => simp [mergeBy]
  | succ n ih =>
    have hcompare (i j : Nat) : (compareAt (xs ++ ys).toArray i j).image f id =
        compareAt (xs.map f ++ ys.map f).toArray i j := by
      rw [image_compareAt, List.map_append]
    have hnegated (i j : Nat) : (negated (compareAt (xs ++ ys).toArray i j)).image f id =
        negated (compareAt (xs.map f ++ ys.map f).toArray i j) := by
      rw [image_negated, hcompare]
    have hsize : (xs.map f ++ ys.map f).toArray.size = (xs ++ ys).toArray.size := by simp
    rw [mergeBy, mergeBy]
    simp only [List.isEmpty_map, List.length_map, hsize]
    split_ifs
    · simp
    · refine image_bind (image_search f (fun i => hnegated i 0) _ _ _) fun i => ?_
      simp
    · refine image_bind (image_search f (fun i => hcompare _ i) _ _ _) fun i => ?_
      simp
    all_goals
      refine image_bind (image_search f (fun c => hcompare _ c) _ _ _) fun start => ?_
      simp only [id, ← List.map_take, ← List.map_drop]
      refine image_bind (ih _ _) fun left => image_bind (ih _ _) fun right => ?_
      simp

/-- Sorting blocks commutes with taking images. -/
theorem image_sortBlocks (done : List (List α)) (n : Nat) (xs : List α) :
    (sortBlocks done n xs).image f (List.map (List.map f)) =
      sortBlocks (done.map (List.map f)) n (xs.map f) := by
  induction n generalizing done xs with
  | zero => simp [sortBlocks]
  | succ n ih =>
    rw [sortBlocks, sortBlocks, List.isEmpty_map]
    split_ifs
    · simp
    · rw [← List.map_take, ← List.map_drop]
      exact image_bind (image_insertionSort f _) fun block => ih (block :: done) _

/-- Merging pairs of blocks commutes with taking images. -/
theorem image_mergePairs (done blocks : List (List α)) :
    (mergePairsBy compareAt done blocks).image f (List.map (List.map f)) =
      mergePairsBy compareAt (done.map (List.map f)) (blocks.map (List.map f)) := by
  fun_induction mergePairsBy compareAt done blocks with
  | case1 done a b rest ih =>
    rw [List.map_cons, List.map_cons, mergePairsBy, List.length_map, List.length_map]
    exact image_bind (image_merge f _ a b) ih
  | case2 done rest hrest =>
    match rest, hrest with
    | [], _ => simp [mergePairsBy]
    | [a], _ => simp [mergePairsBy]
    | a :: b :: rest, hrest => exact (hrest a b rest rfl).elim

/-- Merging all blocks commutes with taking images. -/
theorem image_mergeAll (n : Nat) (blocks : List (List α)) :
    (mergeAllBy compareAt n blocks).image f (List.map f) =
      mergeAllBy compareAt n (blocks.map (List.map f)) := by
  induction n generalizing blocks with
  | zero => simp [mergeAllBy]
  | succ n ih =>
    rw [mergeAllBy, mergeAllBy, List.length_map]
    split_ifs
    · simp
    · exact image_bind (image_mergePairs f [] blocks) ih

/-- Sorting the image of a list is the image of sorting it. -/
theorem image_sort (xs : List α) :
    (sort xs).image f (List.map f) = sort (xs.map f) := by
  rw [sort, sort, sortBy, sortBy, List.length_map]
  refine image_bind (image_sortBlocks f [] _ xs) fun blocks => ?_
  rw [List.length_map]
  exact image_mergeAll f _ blocks

end Sorting

end TinyScript
