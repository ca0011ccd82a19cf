import Mathlib.Data.List.Basic
import Mathlib.Data.List.Perm.Basic
import TinyScript.Sorting.Stable

/-!
# What sorting asks and gives

However its questions are answered, sorting asks only about elements of the list, and its result has
exactly these elements. The two facts are carried through the algorithm together, as a property of
the tree of questions: what holds of the elements asked about, and what holds of the result.
-/

namespace TinyScript

variable {α β γ : Type}

namespace Query

/-- All elements asked about have one property and every result has another one. -/
def All (P : α → Prop) (Q : β → Prop) : Query α β → Prop
  | done b => Q b
  | ask x y next => P x ∧ P y ∧ ∀ answer, (next answer).All P Q

variable {P : α → Prop} {Q : β → Prop} {R : γ → Prop}

/-- A computation without questions only has a result. -/
@[simp] theorem all_pure (b : β) : (pure b : Query α β).All P Q ↔ Q b := Iff.rfl

/-- What a computation leads to is known from what each of its two parts leads to. -/
theorem All.bind {q : Query α β} {f : β → Query α γ} (hq : q.All P Q)
    (hf : ∀ b, Q b → (f b).All P R) : (q >>= f).All P R := by
  induction q with
  | done b => exact hf b hq
  | ask x y next ih => exact ⟨hq.1, hq.2.1, fun answer => ih answer (hq.2.2 answer)⟩

/-- Properties may be weakened. -/
theorem All.mono {P' : α → Prop} {Q' : β → Prop} {q : Query α β} (hq : q.All P Q)
    (hP : ∀ x, P x → P' x) (hQ : ∀ b, Q b → Q' b) : q.All P' Q' := by
  induction q with
  | done b => exact hQ b hq
  | ask x y next ih => exact ⟨hP x hq.1, hP y hq.2.1, fun answer => ih answer (hq.2.2 answer)⟩

/-- What is known of every result is known of the one that the answers lead to. -/
theorem All.of_run {ε : Type} {less : α → α → Except ε Bool} {q : Query α β} (hq : q.All P Q)
    {b : β} (h : q.run less = .ok b) : Q b := by
  induction q with
  | done result =>
    obtain rfl := Except.ok.inj h
    exact hq
  | ask x y next ih =>
    rw [run] at h
    split at h
    · exact nomatch h
    · exact ih _ (hq.2.2 _) h

/-- A single question asks about its two elements. -/
theorem all_before {x y : α} {Q : Bool → Prop} (hx : P x) (hy : P y) (hQ : ∀ answer, Q answer) :
    (before x y).All P Q := ⟨hx, hy, hQ⟩

end Query

namespace Sorting

open Query

variable {P : α → Prop}

/-- Insertion asks about the new element and the sorted ones, and adds the new one to them. -/
theorem all_insertReversed {x : α} (hx : P x) (passed rest : List α) (hrest : ∀ y ∈ rest, P y) :
    (insertReversed x passed rest).All P (List.Perm (x :: (passed ++ rest))) := by
  induction rest generalizing passed with
  | nil =>
    rw [insertReversed, List.append_nil]
    exact (passed.reverse_perm.symm.cons x).trans (List.perm_append_singleton x _).symm
  | cons y rest ih =>
    simp only [List.mem_cons, forall_eq_or_imp] at hrest
    refine (all_before hx hrest.1 fun _ => trivial).bind fun answer _ => ?_
    cases answer with
    | true =>
      refine (ih (y :: passed) hrest.2).mono (fun _ h => h) fun sorted hsorted => ?_
      exact (List.Perm.cons x List.perm_middle).trans hsorted
    | false =>
      have hreverse : (passed ++ x :: y :: rest).Perm (passed.reverse ++ x :: y :: rest) :=
        passed.reverse_perm.symm.append_right _
      exact List.perm_middle.symm.trans hreverse

/-- Inserting one by one asks about the elements and keeps them. -/
theorem all_insertAll (sorted xs : List α) (hsorted : ∀ y ∈ sorted, P y) (hxs : ∀ x ∈ xs, P x) :
    (insertAll sorted xs).All P (List.Perm (sorted ++ xs)) := by
  induction xs generalizing sorted with
  | nil => simp [insertAll]
  | cons x xs ih =>
    simp only [List.mem_cons, forall_eq_or_imp] at hxs
    refine (all_insertReversed hxs.1 [] sorted hsorted).bind fun sorted' hperm => ?_
    have hsorted' : ∀ y ∈ sorted', P y := by
      intro y hy
      rcases List.mem_cons.mp (hperm.mem_iff.mpr hy) with rfl | hy
      · exact hxs.1
      · exact hsorted y hy
    refine (ih sorted' hsorted' hxs.2).mono (fun _ h => h) fun result hresult => ?_
    exact List.perm_middle.trans ((hperm.append_right xs).trans hresult)

/-- Sorting by insertion asks about the elements and keeps them. -/
theorem all_insertionSort (xs : List α) (hxs : ∀ x ∈ xs, P x) :
    (insertionSort xs).All P (List.Perm xs) := by
  refine (all_insertAll [] xs nofun hxs).bind fun sorted hsorted => ?_
  exact hsorted.trans sorted.reverse_perm.symm

/-- A search asks what its questions ask. -/
theorem all_search {question : Nat → Query α Bool}
    (hquestion : ∀ i, (question i).All P fun _ => True) (n low high : Nat) :
    (search question n low high).All P fun _ => True := by
  induction n generalizing low high with
  | zero => trivial
  | succ n ih =>
    rw [search]
    split_ifs
    · refine (hquestion _).bind fun answer _ => ?_
      cases answer with
      | true => exact ih _ _
      | false => exact ih _ _
    · trivial

/-- A comparison of two places asks about elements. -/
theorem all_compareAt {xs : Array α} (hxs : ∀ x ∈ xs.toList, P x) (i j : Nat) :
    (compareAt xs i j).All P fun _ => True := by
  have hmem {i : Nat} {x : α} (h : xs[i]? = some x) : P x := by
    rw [← Array.getElem?_toList] at h
    exact hxs x (List.mem_of_getElem? h)
  unfold compareAt
  split
  · rename_i x y hx hy
    exact all_before (hmem hx) (hmem hy) fun _ => trivial
  · trivial

/-- A part of a list moved behind the part that follows it. -/
theorem perm_take_append_drop (n : Nat) (xs ys : List α) :
    (xs ++ ys).Perm (ys.take n ++ xs ++ ys.drop n) := by
  have hswap : (xs ++ ys.take n).Perm (ys.take n ++ xs) := List.perm_append_comm
  have happend := hswap.append_right (ys.drop n)
  rwa [List.append_assoc, List.take_append_drop] at happend

/-- Merging asks about the elements and keeps them. -/
theorem all_merge (n : Nat) (xs ys : List α) (hxs : ∀ x ∈ xs, P x) (hys : ∀ y ∈ ys, P y) :
    (mergeBy compareAt n xs ys).All P (List.Perm (xs ++ ys)) := by
  induction n generalizing xs ys with
  | zero => exact List.Perm.refl _
  | succ n ih =>
    have hcompare (i j : Nat) : (compareAt (xs ++ ys).toArray i j).All P fun _ => True :=
      all_compareAt (List.forall_mem_append.mpr ⟨hxs, hys⟩) i j
    rw [mergeBy]
    dsimp only
    split
    · exact List.Perm.refl _
    split
    · refine (all_search (fun i => ?_) _ _ _).bind fun i _ => ?_
      · exact (hcompare i 0).bind fun _ _ => trivial
      · exact perm_take_append_drop _ xs ys
    split
    · refine (all_search (fun i => hcompare _ i) _ _ _).bind fun i _ => ?_
      exact List.perm_append_comm.trans (perm_take_append_drop i ys xs)
    · refine (all_search (fun c => hcompare _ c) _ _ _).bind fun start _ => ?_
      set j := (xs ++ ys).toArray.size / 2 + xs.length - start - xs.length
      refine (ih _ _ (fun x hx => hxs x (List.mem_of_mem_take hx))
        (fun y hy => hys y (List.mem_of_mem_take hy))).bind fun left hleft => ?_
      refine (ih _ _ (fun x hx => hxs x (List.mem_of_mem_drop hx))
        (fun y hy => hys y (List.mem_of_mem_drop hy))).bind fun right hright => ?_
      have hcut : (xs ++ ys).Perm
          ((xs.take start ++ ys.take j) ++ (xs.drop start ++ ys.drop j)) := by
        have hmove := (perm_take_append_drop j (xs.drop start) ys).append_left (xs.take start)
        rw [← List.append_assoc, List.take_append_drop] at hmove
        simpa using hmove
      exact hcut.trans (hleft.append hright)

/-- Sorting blocks asks about the elements and keeps them, as many blocks as there may be. -/
theorem all_sortBlocks (done : List (List α)) (n : Nat) (xs : List α) (hn : xs.length ≤ n)
    (hxs : ∀ x ∈ xs, P x) :
    (sortBlocks done n xs).All P fun blocks =>
      (done.reverse.flatten ++ xs).Perm blocks.flatten := by
  induction n generalizing done xs with
  | zero =>
    obtain rfl : xs = [] := List.length_eq_zero_iff.mp (by omega)
    simp [sortBlocks]
  | succ n ih =>
    rw [sortBlocks]
    split_ifs with hempty
    · rw [List.isEmpty_iff.mp hempty]
      simp
    · have hpos : 0 < xs.length := List.length_pos_iff.mpr (by simpa using hempty)
      refine (all_insertionSort _ fun x hx => hxs x (List.mem_of_mem_take hx)).bind
        fun block hblock => ?_
      refine (ih (block :: done) (xs.drop blockSize) ?_
        fun x hx => hxs x (List.mem_of_mem_drop hx)).mono (fun _ h => h) fun blocks hblocks => ?_
      · rw [List.length_drop, blockSize]
        omega
      · have hstep := (hblock.append_right (xs.drop blockSize)).append_left done.reverse.flatten
        rw [List.take_append_drop] at hstep
        refine hstep.trans ?_
        simpa using hblocks

/-- Merging blocks two by two asks about their elements and keeps them. -/
theorem all_mergePairs (done blocks : List (List α)) (hblocks : ∀ x ∈ blocks.flatten, P x) :
    (mergePairsBy compareAt done blocks).All P fun result =>
      (done.reverse.flatten ++ blocks.flatten).Perm result.flatten := by
  fun_induction mergePairsBy compareAt done blocks with
  | case1 done a b rest ih =>
    simp only [List.flatten_cons, List.forall_mem_append] at hblocks
    obtain ⟨ha, hb, hrest⟩ := hblocks
    refine (all_merge _ a b ha hb).bind fun ab hab => ?_
    refine (ih ab hrest).mono (fun _ h => h) fun result hresult => ?_
    have hstep := (hab.append_right rest.flatten).append_left done.reverse.flatten
    rw [List.flatten_cons, List.flatten_cons, ← List.append_assoc a]
    refine hstep.trans ?_
    simpa using hresult
  | case2 done rest _ => simp

/-- Merging all blocks asks about their elements and keeps them. -/
theorem all_mergeAll (n : Nat) (blocks : List (List α)) (hblocks : ∀ x ∈ blocks.flatten, P x) :
    (mergeAllBy compareAt n blocks).All P (List.Perm blocks.flatten) := by
  induction n generalizing blocks with
  | zero => exact List.Perm.refl _
  | succ n ih =>
    rw [mergeAllBy]
    split_ifs
    · exact List.Perm.refl _
    · refine (all_mergePairs [] blocks hblocks).bind fun blocks' hperm => ?_
      have hblocks' : ∀ x ∈ blocks'.flatten, P x := fun x hx => hblocks x (hperm.mem_iff.mpr hx)
      exact (ih blocks' hblocks').mono (fun _ h => h) fun _ h => hperm.trans h

/-- Sorting asks only about elements of the list, and its result has exactly these elements. -/
theorem all_sort (xs : List α) (hxs : ∀ x ∈ xs, P x) : (sort xs).All P (List.Perm xs) := by
  refine (all_sortBlocks [] xs.length xs (Nat.le_refl _) hxs).bind fun blocks hperm => ?_
  have hblocks : ∀ x ∈ blocks.flatten, P x := fun x hx => hxs x (hperm.mem_iff.mpr hx)
  exact (all_mergeAll _ blocks hblocks).mono (fun _ h => h) fun _ h => hperm.trans h

/-- Of two elements or more, the first question is whether the second comes before the first. -/
theorem sort_eq_ask (x y : α) (rest : List α) :
    ∃ next, sort (x :: y :: rest) = .ask y x next := ⟨_, rfl⟩

/-- A list with at most one element is sorted without a question. -/
theorem sort_of_length_le_one {xs : List α} (h : xs.length ≤ 1) : sort xs = .done xs := by
  match xs, h with
  | [], _ => rfl
  | [x], _ => rfl

end Sorting

end TinyScript
