import TinyScript.Proofs.SortImages

/-!
# What sorting puts in order

What a computation comes to may depend on which answers its questions get. If sorting is answered by
a strict weak order, its result is in that order, and of two elements that neither comes before the
other the one that stood first still does. And whatever the answers are: if all questions that are
asked have one, then any two elements are connected by elements that were compared.

Both facts go through the algorithm in the same way. Blocks that are sorted have some property, and
merging neighbours keeps it.
-/

namespace TinyScript

variable {α α' β β' γ : Type}

namespace Query

/-- As long as all answers are among those allowed, the result has a property. -/
def Ensures (allowed : α → α → Bool → Prop) (Q : β → Prop) : Query α β → Prop
  | done b => Q b
  | ask x y next => ∀ answer, allowed x y answer → (next answer).Ensures allowed Q

variable {A : α → α → Bool → Prop} {Q R : β → Prop} {q : Query α β}

/-- A computation without questions only has a result. -/
@[simp] theorem ensures_pure (b : β) : (pure b : Query α β).Ensures A Q ↔ Q b := Iff.rfl

/-- What is ensured of a result may be used for the computation behind it. -/
theorem Ensures.bind {S : γ → Prop} {f : β → Query α γ} (hq : q.Ensures A Q)
    (hf : ∀ b, Q b → (f b).Ensures A S) : (q >>= f).Ensures A S := by
  induction q with
  | done b => exact hf b hq
  | ask x y next ih => exact fun answer hanswer => ih answer (hq answer hanswer)

/-- What follows from what is ensured is ensured. -/
theorem Ensures.mono (hq : q.Ensures A Q) (hQ : ∀ b, Q b → R b) : q.Ensures A R := by
  induction q with
  | done b => exact hQ b hq
  | ask x y next ih => exact fun answer hanswer => ih answer (hq answer hanswer)

/-- Fewer answers lead to no other results. -/
theorem Ensures.of_allowed {B : α → α → Bool → Prop} (hq : q.Ensures A Q)
    (hB : ∀ x y answer, B x y answer → A x y answer) : q.Ensures B Q := by
  induction q with
  | done b => exact hq
  | ask x y next ih =>
    exact fun answer hanswer => ih answer (hq answer (hB x y answer hanswer))

/-- Two things that are ensured are ensured together. -/
theorem Ensures.and (hq : q.Ensures A Q) (hr : q.Ensures A R) :
    q.Ensures A fun b => Q b ∧ R b := by
  induction q with
  | done b => exact ⟨hq, hr⟩
  | ask x y next ih => exact fun answer hanswer => ih answer (hq answer hanswer) (hr answer hanswer)

/-- What every answer leads to is ensured. -/
theorem All.ensures {P : α → Prop} (hq : q.All P Q) : q.Ensures A Q := by
  induction q with
  | done b => exact hq
  | ask x y next ih => exact fun answer _ => ih answer (hq.2.2 answer)

/-- What holds of everything is ensured. -/
theorem ensures_of_forall (q : Query α β) (h : ∀ b, Q b) : q.Ensures A Q := by
  induction q with
  | done b => exact h b
  | ask x y next ih => exact fun answer _ => ih answer

/-- A computation whose questions are all answered comes to what is ensured. -/
theorem Ensures.of_run {ε : Type} {less : α → α → Except ε Bool} {b : β}
    (hq : q.Ensures (fun x y answer => less x y = .ok answer) Q) (h : q.run less = .ok b) :
    Q b := by
  induction q with
  | done result =>
    obtain rfl := Except.ok.inj h
    exact hq
  | ask x y next ih =>
    rw [run] at h
    cases hless : less x y with
    | error e =>
      rw [hless] at h
      cases h
    | ok answer =>
      rw [hless] at h
      exact ih answer (hq answer hless) h

/-- What is ensured of a computation is ensured of its image. -/
theorem Ensures.image {A' : α' → α' → Bool → Prop} {Q' : β' → Prop} {f : α → α'} {g : β → β'}
    (hq : q.Ensures A Q) (hA : ∀ x y answer, A' (f x) (f y) answer → A x y answer)
    (hQ : ∀ b, Q b → Q' (g b)) : (q.image f g).Ensures A' Q' := by
  induction q with
  | done b => exact hQ b hq
  | ask x y next ih => exact fun answer hanswer => ih answer (hq answer (hA x y answer hanswer))

/-- The answers that a function gives. -/
def AnsweredBy (less : α → α → Bool) (x y : α) (answer : Bool) : Prop := answer = less x y

end Query

namespace Sorting

open Query

variable {A : α → α → Bool → Prop}

/-- The result of a single question is one of the answers allowed. -/
theorem ensures_before (x y : α) : (before x y).Ensures A (A x y) := fun _ hanswer => hanswer

/-- Comparing two places gives an answer that is allowed for the elements there. -/
theorem ensures_compareAt {xs : Array α} {i j : Nat} {x y : α} (hx : xs[i]? = some x)
    (hy : xs[j]? = some y) : (compareAt xs i j).Ensures A (A x y) := by
  rw [compareAt, hx, hy]
  exact ensures_before x y

/-- A search ends between a number whose question is answered no and one whose question is answered
yes, whether or not the answers go from no to yes only once. -/
theorem ensures_search {question : Nat → Query α Bool} {p : Nat → Bool} {n low high : Nat}
    (hquestion : ∀ i, low ≤ i → i < high → (question i).Ensures A fun answer => answer = p i)
    (hle : low ≤ high) (hn : high - low ≤ n) :
    (search question n low high).Ensures A fun i =>
      low ≤ i ∧ i ≤ high ∧ (low < i → p (i - 1) = false) ∧ (i < high → p i = true) := by
  induction n generalizing low high with
  | zero =>
    obtain rfl : low = high := by omega
    exact ⟨Nat.le_refl _, Nat.le_refl _, fun h => absurd h (Nat.lt_irrefl _),
      fun h => absurd h (Nat.lt_irrefl _)⟩
  | succ n ih =>
    rw [search]
    split_ifs with hlt
    · refine (hquestion ((low + high) / 2) (by omega) (by omega)).bind fun answer hanswer => ?_
      cases answer with
      | true =>
        refine (ih (fun i hi hi' => hquestion i hi (by omega)) (by omega) (by omega)).mono ?_
        rintro i ⟨hlow, hhigh, hno, hyes⟩
        refine ⟨hlow, by omega, hno, fun _ => ?_⟩
        rcases Nat.lt_or_eq_of_le hhigh with hi | rfl
        · exact hyes hi
        · exact hanswer.symm
      | false =>
        refine (ih (fun i hi hi' => hquestion i (by omega) hi') (by omega) (by omega)).mono ?_
        rintro i ⟨hlow, hhigh, hno, hyes⟩
        refine ⟨by omega, hhigh, fun _ => ?_, hyes⟩
        rcases Nat.lt_or_eq_of_le hlow with hi | rfl
        · exact hno hi
        · exact hanswer.symm
    · exact ⟨Nat.le_refl _, hle, fun h => absurd h (Nat.lt_irrefl _), fun h => absurd h hlt⟩

/-- A search among some numbers asks about one of them, so what each answer tells is told. -/
theorem ensures_search_asks {question : Nat → Query α Bool} {L : Prop} {n low high : Nat}
    (hquestion : ∀ i, low ≤ i → i < high → (question i).Ensures A fun _ => L)
    (hlt : low < high) (hn : high - low ≤ n) :
    (search question n low high).Ensures A fun _ => L := by
  cases n with
  | zero => omega
  | succ n =>
    rw [search, if_pos hlt]
    refine (hquestion ((low + high) / 2) (by omega) (by omega)).bind fun answer hanswer => ?_
    exact ensures_of_forall _ fun _ => hanswer

section Blocks

variable {Good : List α → Prop} {Apart : α → α → Prop}

/-- Each block is good, and elements of different blocks are apart, the earlier block first. -/
structure Blocks (Good : List α → Prop) (Apart : α → α → Prop) (blocks : List (List α)) :
    Prop where
  good : ∀ block ∈ blocks, Good block
  apart : blocks.Pairwise fun a b => ∀ x ∈ a, ∀ y ∈ b, Apart x y

/-- Blocks of which one is replaced by a good one with the elements of some that stood there. -/
theorem Blocks.replace {front middle back : List (List α)} {block : List α}
    (h : Blocks Good Apart (front ++ middle ++ back)) (hgood : Good block)
    (hperm : middle.flatten.Perm block) : Blocks Good Apart (front ++ [block] ++ back) := by
  have hmem {x : α} (hx : x ∈ block) : ∃ b ∈ middle, x ∈ b :=
    List.mem_flatten.mp (hperm.mem_iff.mpr hx)
  obtain ⟨hgoods, hapart⟩ := h
  simp only [List.append_assoc, List.pairwise_append, List.mem_append] at hapart
  obtain ⟨hfront, ⟨-, hback, hmiddleBack⟩, hfrontRest⟩ := hapart
  constructor
  · intro b hb
    simp only [List.mem_append, List.mem_singleton] at hb
    rcases hb with (hb | rfl) | hb
    · exact hgoods b (by simp [hb])
    · exact hgood
    · exact hgoods b (by simp [hb])
  · simp only [List.append_assoc, List.pairwise_append, List.mem_append, List.mem_singleton]
    refine ⟨hfront, ⟨List.pairwise_singleton _ _, hback, ?_⟩, ?_⟩
    · rintro a rfl b hb x hx y hy
      obtain ⟨c, hc, hxc⟩ := hmem hx
      exact hmiddleBack c hc b hb x hxc y hy
    · rintro a ha b (rfl | hb) x hx y hy
      · obtain ⟨c, hc, hyc⟩ := hmem hy
        exact hfrontRest a ha c (.inl hc) x hx y hyc
      · exact hfrontRest a ha b (.inr hb) x hx y hy

/-- Merging two good blocks that are apart gives a good block. -/
def MergesTo (A : α → α → Bool → Prop) (Good : List α → Prop) (Apart : α → α → Prop) : Prop :=
  ∀ a b, Good a → Good b → (∀ x ∈ a, ∀ y ∈ b, Apart x y) →
    (mergeBy compareAt (a.length + b.length) a b).Ensures A Good

/-- Merging blocks two by two keeps them good and apart, and halves their number. -/
theorem ensures_mergePairs (hmerge : MergesTo A Good Apart) (done blocks : List (List α))
    (h : Blocks Good Apart (done.reverse ++ blocks)) :
    (mergePairsBy compareAt done blocks).Ensures A fun result =>
      Blocks Good Apart result ∧ result.length = done.length + (blocks.length + 1) / 2 := by
  fun_induction mergePairsBy compareAt done blocks with
  | case1 done a b rest ih =>
    have hpair : Blocks Good Apart (done.reverse ++ [a, b] ++ rest) := by simpa using h
    have hab : ∀ x ∈ a, ∀ y ∈ b, Apart x y := by
      have hapart := hpair.apart
      simp only [List.pairwise_append, List.pairwise_cons] at hapart
      exact hapart.1.2.1.1 b List.mem_cons_self
    have hmerged := (hmerge a b (hpair.good a (by simp)) (hpair.good b (by simp)) hab).and
      (all_merge (P := fun _ => True) _ a b (by simp) (by simp)).ensures
    refine hmerged.bind fun ab hab => ?_
    obtain ⟨hgood, hperm⟩ := hab
    have hblocks := hpair.replace hgood (by simpa using hperm)
    refine (ih ab (by simpa using hblocks)).mono fun result hresult => ⟨hresult.1, ?_⟩
    have hlength := hresult.2
    simp only [hlength, List.length_cons]
    omega
  | case2 done rest hrest =>
    refine ⟨h, ?_⟩
    cases rest with
    | nil => simp
    | cons a rest =>
      cases rest with
      | nil => simp
      | cons b rest => exact (hrest a b rest rfl).elim

/-- Merging all blocks gives a good one. -/
theorem ensures_mergeAll (hnil : Good []) (hmerge : MergesTo A Good Apart) {n : Nat}
    {blocks : List (List α)} (hn : blocks.length ≤ n) (h : Blocks Good Apart blocks) :
    (mergeAllBy compareAt n blocks).Ensures A Good := by
  have hshort {blocks : List (List α)} (hlength : blocks.length ≤ 1)
      (h : Blocks Good Apart blocks) : Good blocks.flatten := by
    match blocks, hlength with
    | [], _ => exact hnil
    | [a], _ => simpa using h.good a (by simp)
  induction n generalizing blocks with
  | zero => exact hshort (by omega) h
  | succ n ih =>
    rw [mergeAllBy]
    split_ifs with hlength
    · exact hshort hlength h
    · refine (ensures_mergePairs hmerge [] blocks h).bind fun result hresult => ?_
      obtain ⟨hresult, hhalf⟩ := hresult
      exact ih (by simp only [hhalf, List.length_nil]; omega) hresult

/-- Sorting blocks by insertion makes them good, and they are apart if the elements of the list
are. -/
theorem ensures_sortBlocks
    (hinsertion : ∀ xs : List α, xs.Pairwise Apart → (insertionSort xs).Ensures A Good)
    (done : List (List α)) (n : Nat) (xs : List α) (hdone : Blocks Good Apart done.reverse)
    (hxs : xs.Pairwise Apart) (hapart : ∀ block ∈ done, ∀ x ∈ block, ∀ y ∈ xs, Apart x y) :
    (sortBlocks done n xs).Ensures A (Blocks Good Apart) := by
  induction n generalizing done xs with
  | zero => exact hdone
  | succ n ih =>
    rw [sortBlocks]
    split_ifs with hempty
    · exact hdone
    · have htake : (xs.take blockSize).Pairwise Apart := hxs.sublist (List.take_sublist _ _)
      have hsorted := (hinsertion _ htake).and
        (all_insertionSort (P := fun _ => True) (xs.take blockSize) (by simp)).ensures
      have hcut : (xs.take blockSize ++ xs.drop blockSize).Pairwise Apart := by
        rwa [List.take_append_drop]
      refine hsorted.bind fun block hblock => ?_
      obtain ⟨hgood, hperm⟩ := hblock
      refine ih (block :: done) _ ?_ (hxs.sublist (List.drop_sublist _ _)) ?_
      · rw [List.reverse_cons]
        refine ⟨?_, List.pairwise_append.mpr ⟨hdone.apart, List.pairwise_singleton _ _, ?_⟩⟩
        · simpa [or_imp, forall_and] using ⟨by simpa using hdone.good, hgood⟩
        · rintro a ha b hb x hx y hy
          obtain rfl := List.mem_singleton.mp hb
          exact hapart a (List.mem_reverse.mp ha) x hx y
            (List.mem_of_mem_take (hperm.mem_iff.mpr hy))
      · rintro a ha x hx y hy
        rcases List.mem_cons.mp ha with rfl | ha
        · exact (List.pairwise_append.mp hcut).2.2 x (hperm.mem_iff.mpr hx) y hy
        · exact hapart a ha x hx y (List.mem_of_mem_drop hy)

/-- Sorting gives a good list if insertion does and merging keeps blocks good. -/
theorem ensures_sort (hnil : Good []) (hmerge : MergesTo A Good Apart)
    (hinsertion : ∀ xs : List α, xs.Pairwise Apart → (insertionSort xs).Ensures A Good)
    {xs : List α} (hxs : xs.Pairwise Apart) : (sort xs).Ensures A Good := by
  have hblocks := ensures_sortBlocks hinsertion [] xs.length xs ⟨nofun, .nil⟩ hxs nofun
  exact hblocks.bind fun blocks hblocks => ensures_mergeAll hnil hmerge (Nat.le_refl _) hblocks

end Blocks

/-- Answers by a strict weak order: of two elements at most one comes before the other, and elements
may be put between two that need not change places. -/
structure Orderly (less : α → α → Bool) : Prop where
  asymm : ∀ {x y}, less x y = true → less y x = false
  trans : ∀ {x y z}, less x y = false → less y z = false → less x z = false

/-- One element is rightly in front of another: it comes before it, or neither comes before the
other and it is the older one. -/
def Precedes (less : α → α → Bool) (older : α → α → Prop) (x y : α) : Prop :=
  less x y = true ∨ less y x = false ∧ older x y

section Order

variable {less : α → α → Bool} {older : α → α → Prop}

/-- No element comes before itself. -/
theorem Orderly.irrefl (hless : Orderly less) (x : α) : less x x = false := by
  by_contra h
  have htrue : less x x = true := by simpa using h
  exact h (hless.asymm htrue)

/-- An element that is rightly in front of another is not preceded by it. -/
theorem Precedes.not_less (hless : Orderly less) {x y : α} (h : Precedes less older x y) :
    less y x = false := by
  rcases h with h | h
  · exact hless.asymm h
  · exact h.1

/-- Later elements of a list in order come before no earlier ones. -/
theorem not_less_of_le (hless : Orderly less) {xs : List α}
    (hxs : xs.Pairwise (Precedes less older)) {a b : Nat} (hab : a ≤ b) {x y : α}
    (hx : xs[a]? = some x) (hy : xs[b]? = some y) : less y x = false := by
  obtain ⟨ha, rfl⟩ := List.getElem?_eq_some_iff.mp hx
  obtain ⟨hb, rfl⟩ := List.getElem?_eq_some_iff.mp hy
  rcases Nat.lt_or_eq_of_le hab with hlt | rfl
  · exact (List.pairwise_iff_getElem.mp hxs a b ha hb hlt).not_less hless
  · exact hless.irrefl _

/-- An element put into a list in order, behind all that come before it and in front of all that it
comes before. -/
theorem pairwise_insert {R : α → α → Prop} {front back : List α} {x : α}
    (h : (front ++ back).Pairwise R) (hfront : ∀ y ∈ front, R y x) (hback : ∀ y ∈ back, R x y) :
    (front ++ x :: back).Pairwise R := by
  obtain ⟨hf, hb, hfb⟩ := List.pairwise_append.mp h
  refine List.pairwise_append.mpr ⟨hf, List.pairwise_cons.mpr ⟨hback, hb⟩, fun a ha b hmem => ?_⟩
  rcases List.mem_cons.mp hmem with rfl | hmem
  · exact hfront a ha
  · exact hfb a ha b hmem

/-- Insertion keeps the order, where the new element is the youngest: what stands behind the element
that it stops at comes before that one, so the new element does not come before it either. -/
theorem ensures_insertReversed (hless : Orderly less) {x : α} (passed rest : List α)
    (hsorted : (passed.reverse ++ rest).Pairwise fun a b => Precedes less older b a)
    (hpassed : ∀ y ∈ passed, less x y = true) (hrest : ∀ y ∈ rest, older y x) :
    (insertReversed x passed rest).Ensures (AnsweredBy less)
      (List.Pairwise fun a b => Precedes less older b a) := by
  have hfront : ∀ y ∈ passed.reverse, Precedes less older x y :=
    fun y hy => .inl (hpassed y (List.mem_reverse.mp hy))
  induction rest generalizing passed with
  | nil => exact pairwise_insert hsorted hfront nofun
  | cons y rest ih =>
    refine (ensures_before x y).bind fun answer hanswer => ?_
    cases answer with
    | true =>
      have hpassed' : ∀ z ∈ y :: passed, less x z = true :=
        List.forall_mem_cons.mpr ⟨hanswer.symm, hpassed⟩
      exact ih (y :: passed) (by simpa using hsorted) hpassed' (List.forall_mem_cons.mp hrest).2
        fun z hz => .inl (hpassed' z (List.mem_reverse.mp hz))
    | false =>
      refine pairwise_insert hsorted hfront fun z hz => .inr ⟨?_, hrest z hz⟩
      rcases List.mem_cons.mp hz with rfl | hz
      · exact hanswer.symm
      · have hbelow := (List.pairwise_cons.mp (List.pairwise_append.mp hsorted).2.1).1 z hz
        exact hless.trans hanswer.symm (hbelow.not_less hless)

/-- Inserting younger elements one after the other keeps a list in order. The list is kept with the
greatest element first, so that a new one is compared with it first. -/
theorem ensures_insertAll (hless : Orderly less) (sorted xs : List α)
    (hsorted : sorted.Pairwise fun a b => Precedes less older b a)
    (holder : ∀ y ∈ sorted, ∀ x ∈ xs, older y x) (hxs : xs.Pairwise older) :
    (insertAll sorted xs).Ensures (AnsweredBy less)
      (List.Pairwise fun a b => Precedes less older b a) := by
  induction xs generalizing sorted with
  | nil => exact hsorted
  | cons x xs ih =>
    obtain ⟨hx, hxs⟩ := List.pairwise_cons.mp hxs
    have hinsert := (ensures_insertReversed hless [] sorted (by simpa using hsorted) nofun
      fun y hy => holder y hy x List.mem_cons_self).and
      (all_insertReversed (P := fun _ => True) trivial [] sorted (by simp)).ensures
    refine hinsert.bind fun sorted' hsorted' => ih sorted' hsorted'.1 ?_ hxs
    intro y hy z hz
    rcases List.mem_cons.mp (hsorted'.2.mem_iff.mpr hy) with rfl | hy
    · exact hx z hz
    · exact holder y hy z (List.mem_cons_of_mem _ hz)

/-- Sorting by insertion puts a list in order whose elements stand by age. -/
theorem ensures_insertionSort (hless : Orderly less) (xs : List α) (hxs : xs.Pairwise older) :
    (insertionSort xs).Ensures (AnsweredBy less) (List.Pairwise (Precedes less older)) := by
  refine (ensures_insertAll hless [] xs .nil nofun hxs).bind fun sorted hsorted => ?_
  exact List.pairwise_reverse.mpr hsorted

/-- Two lists in order can be cut here: nothing behind the cut of the second list comes before
anything in front of the cut of the first one, and everything in front of the cut of the second list
comes before everything behind the cut of the first one. -/
structure Cut (less : α → α → Bool) (xs ys : List α) (i j : Nat) : Prop where
  stays : ∀ x ∈ xs.take i, ∀ y ∈ ys.drop j, less y x = false
  moves : ∀ y ∈ ys.take j, ∀ x ∈ xs.drop i, less y x = true

/-- Where lists in order can be cut is decided by the elements next to the cuts. -/
theorem cut_of_neighbours (hless : Orderly less) {xs ys : List α} {i j : Nat}
    (hxs : xs.Pairwise (Precedes less older)) (hys : ys.Pairwise (Precedes less older))
    (hi : i ≤ xs.length) (hj : j ≤ ys.length)
    (hstays : ∀ x y, 0 < i → xs[i - 1]? = some x → ys[j]? = some y → less y x = false)
    (hmoves : ∀ x y, 0 < j → xs[i]? = some x → ys[j - 1]? = some y → less y x = true) :
    Cut less xs ys i j where
  stays x hx y hy := by
    obtain ⟨a, ha, rfl⟩ := List.mem_take_iff_getElem.mp hx
    obtain ⟨b, hb, rfl⟩ := List.mem_drop_iff_getElem.mp hy
    have hlast : xs[i - 1]? = some xs[i - 1] := List.getElem?_eq_getElem (by omega)
    have hfirst : ys[j]? = some ys[j] := List.getElem?_eq_getElem (by omega)
    have hx := not_less_of_le hless hxs (by omega : a ≤ i - 1)
      (List.getElem?_eq_getElem (by omega)) hlast
    have hy := not_less_of_le hless hys (by omega : j ≤ j + b) hfirst
      (List.getElem?_eq_getElem (by omega))
    exact hless.trans (hless.trans hy (hstays _ _ (by omega) hlast hfirst)) hx
  moves y hy x hx := by
    obtain ⟨b, hb, rfl⟩ := List.mem_take_iff_getElem.mp hy
    obtain ⟨a, ha, rfl⟩ := List.mem_drop_iff_getElem.mp hx
    have hfirst : xs[i]? = some xs[i] := List.getElem?_eq_getElem (by omega)
    have hlast : ys[j - 1]? = some ys[j - 1] := List.getElem?_eq_getElem (by omega)
    have hx := not_less_of_le hless hxs (by omega : i ≤ i + a) hfirst
      (List.getElem?_eq_getElem (by omega))
    have hy := not_less_of_le hless hys (by omega : b ≤ j - 1)
      (List.getElem?_eq_getElem (by omega)) hlast
    by_contra hnot
    have hno := hless.trans (hless.trans hy (by simpa using hnot)) hx
    rw [hmoves _ _ (by omega) hfirst hlast] at hno
    cases hno

/-- What is in front of the cuts and what is behind them, each put in order, are in order
together. -/
theorem Cut.pairwise_append {xs ys left right : List α} {i j : Nat} (hcut : Cut less xs ys i j)
    (hxs : xs.Pairwise (Precedes less older)) (hys : ys.Pairwise (Precedes less older))
    (holder : ∀ x ∈ xs, ∀ y ∈ ys, older x y)
    (hleft : left.Pairwise (Precedes less older)) (hright : right.Pairwise (Precedes less older))
    (hpermLeft : (xs.take i ++ ys.take j).Perm left)
    (hpermRight : (xs.drop i ++ ys.drop j).Perm right) :
    (left ++ right).Pairwise (Precedes less older) := by
  refine List.pairwise_append.mpr ⟨hleft, hright, fun a ha b hb => ?_⟩
  have hcross {zs : List α} (n : Nat) (hzs : zs.Pairwise (Precedes less older)) :
      ∀ a ∈ zs.take n, ∀ b ∈ zs.drop n, Precedes less older a b := by
    rw [← List.take_append_drop n zs] at hzs
    exact (List.pairwise_append.mp hzs).2.2
  rcases List.mem_append.mp (hpermLeft.mem_iff.mpr ha) with ha | ha <;>
    rcases List.mem_append.mp (hpermRight.mem_iff.mpr hb) with hb | hb
  · exact hcross i hxs a ha b hb
  · exact .inr ⟨hcut.stays a ha b hb,
      holder a (List.mem_of_mem_take ha) b (List.mem_of_mem_drop hb)⟩
  · exact .inl (hcut.moves a ha b hb)
  · exact hcross j hys a ha b hb

/-- The answer to a comparison of two places of a list; no if one of them is not there. -/
def comparison (less : α → α → Bool) (xs : List α) (i j : Nat) : Bool :=
  match xs[i]?, xs[j]? with
  | some x, some y => less x y
  | _, _ => false

/-- Comparing two places compares the elements there. -/
theorem comparison_eq {xs : List α} {i j : Nat} {x y : α} (hx : xs[i]? = some x)
    (hy : xs[j]? = some y) : comparison less xs i j = less x y := by
  rw [comparison, hx, hy]

/-- Comparing two places, answered by a function, gives its answer about the elements there. -/
theorem ensures_comparison (xs : List α) (i j : Nat) :
    (compareAt xs.toArray i j).Ensures (AnsweredBy less) fun answer =>
      answer = comparison less xs i j := by
  simp only [compareAt, comparison, List.getElem?_toArray]
  cases xs[i]? with
  | none => rfl
  | some x =>
    cases xs[j]? with
    | none => rfl
    | some y => exact ensures_before x y

/-- Lists in order can be cut where the comparisons across the cuts come out right. -/
theorem cut_of_comparisons (hless : Orderly less) {xs ys : List α} {i j : Nat}
    (hxs : xs.Pairwise (Precedes less older)) (hys : ys.Pairwise (Precedes less older))
    (hi : i ≤ xs.length) (hj : j ≤ ys.length)
    (hstays : 0 < i → j < ys.length →
      comparison less (xs ++ ys) (xs.length + j) (i - 1) = false)
    (hmoves : 0 < j → i < xs.length →
      comparison less (xs ++ ys) (xs.length + (j - 1)) i = true) : Cut less xs ys i j := by
  have hfirst {a : Nat} {x : α} (hx : xs[a]? = some x) : (xs ++ ys)[a]? = some x := by
    rw [List.getElem?_append_left (List.getElem?_eq_some_iff.mp hx).1, hx]
  have hsecond {b : Nat} {y : α} (hy : ys[b]? = some y) :
      (xs ++ ys)[xs.length + b]? = some y := by
    rw [List.getElem?_append_right (Nat.le_add_right _ _), Nat.add_sub_cancel_left, hy]
  refine cut_of_neighbours hless hxs hys hi hj (fun x y hpos hx hy => ?_)
    fun x y hpos hx hy => ?_
  · rw [← hstays hpos (List.getElem?_eq_some_iff.mp hy).1,
      comparison_eq (hsecond hy) (hfirst hx)]
  · rw [← hmoves hpos (List.getElem?_eq_some_iff.mp hx).1,
      comparison_eq (hsecond hy) (hfirst hx)]

section Merge

variable {xs ys : List α} (hless : Orderly less) (hxs : xs.Pairwise (Precedes less older))
  (hys : ys.Pairwise (Precedes less older)) (holder : ∀ x ∈ xs, ∀ y ∈ ys, older x y)
include hless hxs hys

/-- The search for the place of a single element in the list behind it. -/
theorem ensures_search_single (hone : xs.length = 1) :
    (search (fun i => negated (compareAt (xs ++ ys).toArray i 0)) (xs ++ ys).length xs.length
      (xs ++ ys).length).Ensures (AnsweredBy less) fun i =>
        Cut less xs ys 0 (i - xs.length) ∧ Cut less xs ys 1 (i - xs.length) := by
  have hquestion (i : Nat) : (negated (compareAt (xs ++ ys).toArray i 0)).Ensures (AnsweredBy less)
      fun answer => answer = !comparison less (xs ++ ys) i 0 :=
    (ensures_comparison (xs ++ ys) i 0).bind fun answer hanswer => congrArg (!·) hanswer
  refine (ensures_search (fun i _ _ => hquestion i) (by simp) (by omega)).mono ?_
  rintro i ⟨hlow, hhigh, hno, hyes⟩
  rw [List.length_append] at hhigh hyes
  simp only [Bool.not_eq_eq_eq_not, Bool.not_false, Bool.not_true] at hno hyes
  constructor
  · refine cut_of_comparisons hless hxs hys (Nat.zero_le _) (by omega) (by omega) fun hpos _ => ?_
    rw [show xs.length + (i - xs.length - 1) = i - 1 by omega]
    exact hno (by omega)
  · refine cut_of_comparisons hless hxs hys (by omega) (by omega) (fun _ hlt => ?_) (by omega)
    rw [show xs.length + (i - xs.length) = i by omega]
    exact hyes (by omega)

/-- The search for the place of a single element in the list in front of it. -/
theorem ensures_search_last (hone : ys.length = 1) :
    (search (fun i => compareAt (xs ++ ys).toArray xs.length i) (xs ++ ys).length 0
      xs.length).Ensures (AnsweredBy less) fun i =>
        Cut less xs ys i 0 ∧ Cut less xs ys i 1 := by
  refine (ensures_search (fun i _ _ => ensures_comparison (xs ++ ys) xs.length i) (by simp)
    (by simp)).mono ?_
  rintro i ⟨-, hhigh, hno, hyes⟩
  constructor
  · exact cut_of_comparisons hless hxs hys hhigh (Nat.zero_le _) (fun hpos _ => hno hpos) (by omega)
  · exact cut_of_comparisons hless hxs hys hhigh (by omega) (by omega) fun _ hlt => hyes hlt

/-- The search for cuts that leave half of all elements in front. -/
theorem ensures_search_halves {half low high : Nat} (hhalf : half = (xs ++ ys).length / 2)
    (hlow : low = if half < xs.length then half + xs.length - (xs ++ ys).length else 0)
    (hhigh : high = if half < xs.length then half else xs.length) :
    (search (fun c => compareAt (xs ++ ys).toArray (half + xs.length - 1 - c) c)
      (xs ++ ys).length low high).Ensures (AnsweredBy less) fun i =>
        i ≤ half ∧ i ≤ xs.length ∧ half - i ≤ ys.length ∧ Cut less xs ys i (half - i) := by
  have hbounds : low ≤ high ∧ high ≤ half ∧ high ≤ xs.length ∧ half - low ≤ ys.length ∧
      (0 < low → half - low = ys.length) ∧ (high = half ∨ high = xs.length) := by
    rw [List.length_append] at hhalf hlow
    split_ifs at hlow hhigh <;> omega
  obtain ⟨hle, hhalf, hlength, hrest, hfull, hends⟩ := hbounds
  refine (ensures_search (fun c _ _ => ensures_comparison (xs ++ ys) (half + xs.length - 1 - c) c)
    hle (by rw [List.length_append]; omega)).mono ?_
  rintro i ⟨hi, hi', hno, hyes⟩
  refine ⟨by omega, by omega, by omega, ?_⟩
  refine cut_of_comparisons hless hxs hys (by omega) (by omega) (fun hpos hlt => ?_)
    fun hpos hlt => ?_
  · rw [show xs.length + (half - i) = half + xs.length - 1 - (i - 1) by omega]
    exact hno (by omega)
  · rw [show xs.length + (half - i - 1) = half + xs.length - 1 - i by omega]
    exact hyes (by omega)

end Merge

/-- Merging lists in order, the older one first, puts all elements in order. -/
theorem ensures_merge (hless : Orderly less) {n : Nat} {xs ys : List α}
    (hn : xs.length + ys.length ≤ n) (hxs : xs.Pairwise (Precedes less older))
    (hys : ys.Pairwise (Precedes less older)) (holder : ∀ x ∈ xs, ∀ y ∈ ys, older x y) :
    (mergeBy compareAt n xs ys).Ensures (AnsweredBy less)
      (List.Pairwise (Precedes less older)) := by
  induction n generalizing xs ys with
  | zero =>
    obtain rfl : xs = [] := List.length_eq_zero_iff.mp (by omega)
    exact hys
  | succ n ih =>
    rw [mergeBy]
    simp only [List.size_toArray]
    split
    · rename_i hempty
      rcases (by simpa using hempty : xs = [] ∨ ys = []) with rfl | rfl
      · exact hys
      · simpa using hxs
    rename_i hnonempty
    have hpos : 0 < xs.length ∧ 0 < ys.length := by
      simpa [List.length_pos_iff] using hnonempty
    split
    · rename_i hone
      refine (ensures_search_single hless hxs hys hone).bind fun i hi => ?_
      obtain ⟨hfront, hback⟩ := hi
      have hright : (xs ++ ys.drop (i - xs.length)).Pairwise (Precedes less older) := by
        refine List.pairwise_append.mpr ⟨hxs, hys.sublist (List.drop_sublist _ _), ?_⟩
        refine fun x hx y hy =>
          .inr ⟨hback.stays x ?_ y hy, holder x hx y (List.mem_of_mem_drop hy)⟩
        rwa [List.take_of_length_le (by omega)]
      rw [ensures_pure, List.append_assoc]
      exact hfront.pairwise_append hxs hys holder (hys.sublist (List.take_sublist _ _)) hright
        (by simp) (by simp)
    split
    · rename_i hlast
      obtain ⟨y, rfl⟩ : ∃ y, ys = [y] :=
        List.length_eq_one_iff.mp (by rw [List.length_append] at hlast; omega)
      refine (ensures_search_last hless hxs hys rfl).bind fun i hi => ?_
      obtain ⟨hfront, hback⟩ := hi
      have hleft : (xs.take i ++ [y]).Pairwise (Precedes less older) := by
        refine List.pairwise_append.mpr ⟨hxs.sublist (List.take_sublist _ _), hys, ?_⟩
        exact fun x hx z hz =>
          .inr ⟨hfront.stays x hx z hz, holder x (List.mem_of_mem_take hx) z hz⟩
      rw [ensures_pure]
      exact hback.pairwise_append hxs hys holder hleft (hxs.sublist (List.drop_sublist _ _))
        (by simp) (by simp)
    · refine (ensures_search_halves hless hxs hys rfl rfl rfl).bind fun i hi => ?_
      obtain ⟨hi, hi', hj, hcut⟩ := hi
      have hstop : (xs ++ ys).length / 2 + xs.length - i - xs.length =
          (xs ++ ys).length / 2 - i := by omega
      rw [hstop]
      rw [List.length_append] at hi hj hcut ⊢
      set j := (xs.length + ys.length) / 2 - i
      have hmerge {xs' ys' : List α} (hxs' : xs'.Sublist xs) (hys' : ys'.Sublist ys)
          (hlength : xs'.length + ys'.length ≤ n) :
          (mergeBy compareAt n xs' ys').Ensures (AnsweredBy less) fun merged =>
            merged.Pairwise (Precedes less older) ∧ (xs' ++ ys').Perm merged := by
        refine (ih hlength (hxs.sublist hxs') (hys.sublist hys') ?_).and
          (all_merge (P := fun _ => True) n xs' ys' (by simp) (by simp)).ensures
        exact fun x hx y hy => holder x (hxs'.mem hx) y (hys'.mem hy)
      refine (hmerge (List.take_sublist i xs) (List.take_sublist j ys)
        (by simp only [List.length_take]; omega)).bind fun left hleft => ?_
      refine (hmerge (List.drop_sublist i xs) (List.drop_sublist j ys)
        (by simp only [List.length_drop]; omega)).bind fun right hright => ?_
      exact hcut.pairwise_append hxs hys holder hleft.1 hright.1 hleft.2 hright.2

/-- Sorting puts a list in order whose elements stand by age. -/
theorem ensures_sort_pairwise (hless : Orderly less) {xs : List α} (hxs : xs.Pairwise older) :
    (sort xs).Ensures (AnsweredBy less) (List.Pairwise (Precedes less older)) :=
  ensures_sort .nil (fun _ _ ha hb hab => ensures_merge hless (Nat.le_refl _) ha hb hab)
    (ensures_insertionSort hless) hxs

end Order

/-- One list has the elements of another one in order, and elements that neither comes before the
other stand as they stood there. -/
def StableSorting (before : α → α → Prop) (xs ys : List α) : Prop :=
  ∃ places : List (α × Nat), places.Perm xs.zipIdx ∧ places.map Prod.fst = ys ∧
    places.Pairwise fun p q => before p.1 q.1 ∨ ¬ before q.1 p.1 ∧ p.2 < q.2

/-- A relation is a strict weak order on the elements of a list: being ahead is irreflexive and
transitive, and so is being neither ahead nor behind. -/
structure StrictWeakOrder (before : α → α → Prop) (xs : List α) : Prop where
  irrefl : ∀ x ∈ xs, ¬ before x x
  trans : ∀ x ∈ xs, ∀ y ∈ xs, ∀ z ∈ xs, before x y → before y z → before x z
  alike_trans : ∀ x ∈ xs, ∀ y ∈ xs, ∀ z ∈ xs, ¬ before x y ∧ ¬ before y x →
    ¬ before y z ∧ ¬ before z y → ¬ before x z ∧ ¬ before z x

/-- A strict weak order on a list gives orderly answers about its elements. -/
theorem StrictWeakOrder.orderly {less : α → α → Bool} {xs : List α}
    (h : StrictWeakOrder (fun x y => less x y = true) xs) :
    Orderly fun p q : { x // x ∈ xs } × Nat => less p.1 q.1 where
  asymm {p q} hpq := by
    by_contra hqp
    exact h.irrefl p.1 p.1.2 (h.trans _ p.1.2 _ q.1.2 _ p.1.2 hpq (by simpa using hqp))
  trans {p q r} hpq hqr := by
    by_contra hnot
    have hpr : less p.1 r.1 = true := by simpa using hnot
    have hqp : ¬ less q.1 p.1 = true := by
      intro hqp
      have hqr' := h.trans _ q.1.2 _ p.1.2 _ r.1.2 hqp hpr
      rw [hqr] at hqr'
      cases hqr'
    have hrq : ¬ less r.1 q.1 = true := by
      intro hrq
      have hpq' := h.trans _ p.1.2 _ r.1.2 _ q.1.2 hpr hrq
      rw [hpq] at hpq'
      cases hpq'
    exact (h.alike_trans _ p.1.2 _ q.1.2 _ r.1.2 ⟨by simp [hpq], hqp⟩ ⟨by simp [hqr], hrq⟩).1 hpr

/-- Numbered elements stand in the order of their numbers. -/
theorem pairwise_zipIdx (xs : List α) : xs.zipIdx.Pairwise fun p q => p.2 < q.2 := by
  rw [← List.pairwise_map (R := (· < ·)) (f := Prod.snd), List.zipIdx_map_snd]
  exact List.pairwise_lt_range'

/-- If questions are answered by a strict weak order on the elements, sorting is stable sorting by
that order. The elements are numbered by their places, so that the order of places can be spoken
of. -/
theorem ensures_sort_stable {less : α → α → Bool} {xs : List α}
    (h : StrictWeakOrder (fun x y => less x y = true) xs) :
    (sort xs).Ensures (AnsweredBy less) (StableSorting (fun x y => less x y = true) xs) := by
  have hsorted := (ensures_sort_pairwise h.orderly (pairwise_zipIdx xs.attach)).and
    (all_sort (P := fun _ => True) xs.attach.zipIdx (by simp)).ensures
  have hplaces : xs.attach.zipIdx.map (fun p => p.1.1) = xs := by
    calc xs.attach.zipIdx.map (fun p => p.1.1)
        = (xs.attach.zipIdx.map Prod.fst).map Subtype.val := by rw [List.map_map]; rfl
      _ = xs := by rw [List.zipIdx_map_fst, List.attach_map_subtype_val]
  have hnumbers : xs.attach.zipIdx.map (fun p => (p.1.1, p.2)) = xs.zipIdx := by
    have hmap := List.zipIdx_map (l := xs.attach) (k := 0) (f := Subtype.val)
    rw [List.attach_map_subtype_val] at hmap
    exact hmap.symm
  have himage := image_sort (fun p : { x // x ∈ xs } × Nat => p.1.1) xs.attach.zipIdx
  rw [hplaces] at himage
  rw [← himage]
  refine hsorted.image (fun p q _ hanswer => hanswer) ?_
  rintro places ⟨hordered, hperm⟩
  refine ⟨places.map fun p => (p.1.1, p.2), ?_, by simp, ?_⟩
  · rw [← hnumbers]
    exact hperm.symm.map _
  · refine List.pairwise_map.mpr (hordered.imp fun {p q} hpq => ?_)
    simpa [Precedes] using hpq

/-- All elements of a list are of one kind. -/
def OfOneKind {κ : Type} (kind : α → κ) (xs : List α) : Prop := ∀ x ∈ xs, ∀ y ∈ xs, kind x = kind y

section Kinds

variable {κ : Type} {kind : α → κ}

/-- The order of a list does not matter to the kinds of its elements. -/
theorem OfOneKind.perm {xs ys : List α} (h : OfOneKind kind xs) (hperm : xs.Perm ys) :
    OfOneKind kind ys :=
  fun x hx y hy => h x (hperm.mem_iff.mpr hx) y (hperm.mem_iff.mpr hy)

/-- Two lists, each of one kind, are of one kind together if two elements are. -/
theorem OfOneKind.append {xs ys : List α} (hxs : OfOneKind kind xs) (hys : OfOneKind kind ys)
    (h : ∃ x ∈ xs, ∃ y ∈ ys, kind x = kind y) : OfOneKind kind (xs ++ ys) := by
  obtain ⟨x, hx, y, hy, hxy⟩ := h
  have hall : ∀ z ∈ xs ++ ys, kind z = kind x := by
    intro z hz
    rcases List.mem_append.mp hz with hz | hz
    · exact hxs z hz x hx
    · exact (hys z hz y hy).trans hxy.symm
  exact fun a ha b hb => (hall a ha).trans (hall b hb).symm

variable (hkind : ∀ x y answer, A x y answer → kind x = kind y)
include hkind

/-- Inserting elements one after the other compares each with the greatest of those that are there,
so all are of one kind. -/
theorem ensures_insertAll_kind (sorted xs : List α) (hsorted : OfOneKind kind sorted) :
    (insertAll sorted xs).Ensures A (OfOneKind kind) := by
  induction xs generalizing sorted with
  | nil => exact hsorted
  | cons x xs ih =>
    have hinsert : (insertReversed x [] sorted).Ensures A
        fun _ => OfOneKind kind (x :: sorted) := by
      cases sorted with
      | nil => exact ensures_of_forall _ fun _ => by simp [OfOneKind]
      | cons y rest =>
        refine (ensures_before x y).bind fun answer hanswer => ensures_of_forall _ fun _ => ?_
        have hx : OfOneKind kind [x] := by simp [OfOneKind]
        exact hx.append hsorted ⟨x, by simp, y, by simp, hkind x y answer hanswer⟩
    refine (hinsert.and (all_insertReversed (P := fun _ => True) trivial [] sorted
      (by simp)).ensures).bind fun sorted' h => ih sorted' (h.1.perm h.2)

/-- Merging compares an element of the one list with an element of the other. -/
theorem ensures_merge_kind {n : Nat} {xs ys : List α} (hn : xs.length + ys.length ≤ n)
    (hxs : OfOneKind kind xs) (hys : OfOneKind kind ys) :
    (mergeBy compareAt n xs ys).Ensures A (OfOneKind kind) := by
  have hcompare {i j : Nat} (hi : xs.length ≤ i) (hi' : i < (xs ++ ys).length)
      (hj : j < xs.length) :
      (compareAt (xs ++ ys).toArray i j).Ensures A fun _ => OfOneKind kind (xs ++ ys) := by
    rw [List.length_append] at hi'
    have hy : (xs ++ ys)[i]? = some ys[i - xs.length] := by
      rw [List.getElem?_append_right hi, List.getElem?_eq_getElem (by omega)]
    have hx : (xs ++ ys)[j]? = some xs[j] := by
      rw [List.getElem?_append_left hj, List.getElem?_eq_getElem hj]
    refine (ensures_compareAt (by simpa using hy) (by simpa using hx)).mono fun answer hanswer => ?_
    exact hxs.append hys
      ⟨_, List.getElem_mem hj, _, List.getElem_mem _, (hkind _ _ answer hanswer).symm⟩
  suffices hmerge : (mergeBy compareAt n xs ys).Ensures A fun _ => OfOneKind kind (xs ++ ys) from
    (hmerge.and (all_merge (P := fun _ => True) n xs ys (by simp) (by simp)).ensures).mono
      fun _ h => h.1.perm h.2
  cases n with
  | zero =>
    obtain rfl : xs = [] := List.length_eq_zero_iff.mp (by omega)
    exact ensures_of_forall _ fun _ => hys
  | succ n =>
    rw [mergeBy]
    simp only [List.size_toArray]
    split
    · rename_i hempty
      rcases (by simpa using hempty : xs = [] ∨ ys = []) with rfl | rfl
      · exact hys
      · simpa using hxs
    rename_i hnonempty
    have hpos : 0 < xs.length ∧ 0 < ys.length := by
      simpa [List.length_pos_iff] using hnonempty
    have hlength : (xs ++ ys).length = xs.length + ys.length := List.length_append
    split
    · refine (ensures_search_asks (fun i hi hi' => ?_) (by omega) (by omega)).bind
        fun _ hone => hone
      exact (hcompare hi hi' hpos.1).bind fun _ hone => hone
    split
    · refine (ensures_search_asks (fun i _ hi => hcompare (Nat.le_refl _) (by omega) hi) hpos.1
        (by omega)).bind fun _ hone => hone
    · refine (ensures_search_asks (fun i hi hi' => hcompare ?_ ?_ ?_) ?_ ?_).bind
        fun _ hone => ensures_of_forall _ fun _ => hone
      · split_ifs at hi' <;> omega
      · split_ifs at hi <;> omega
      · split_ifs at hi' <;> omega
      · split_ifs <;> omega
      · split_ifs <;> omega

/-- If all questions are answered, and only elements of one kind have an answer, then all elements
of the list are of one kind. -/
theorem ensures_sort_kind (xs : List α) : (sort xs).Ensures A (OfOneKind kind) := by
  have hnil : OfOneKind kind [] := nofun
  have hmerge : MergesTo A (OfOneKind kind) fun _ _ => True :=
    fun a b ha hb _ => ensures_merge_kind hkind (Nat.le_refl _) ha hb
  refine ensures_sort hnil hmerge (fun xs _ => ?_) (List.pairwise_of_forall fun _ _ => trivial)
  refine (ensures_insertAll_kind hkind [] xs hnil).bind fun sorted hsorted => ?_
  exact hsorted.perm sorted.reverse_perm.symm

end Kinds

end Sorting

end TinyScript
