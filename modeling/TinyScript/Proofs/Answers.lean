import TinyScript.Builtin.Run
import TinyScript.Proofs.Permutation

/-!
# What builtins answer

Everything that a call of a builtin can come to, said once: a failure, a value at hand, a new array
of values at hand, one of a few changes of the store, or a call back into the program, for which the
arguments have one of a few forms. What holds of all builtins is read off from this list.
-/

namespace TinyScript

/-- Numbers, texts and booleans. -/
def Value.IsAtom : Value → Prop
  | .number _ | .string _ | .boolean _ => True
  | _ => False

/-- The values that a builtin can get hold of: atoms, its arguments, elements and fields. -/
def Store.AtHand (s : Store) (args : List Value) (v : Value) : Prop :=
  v.IsAtom ∨ v ∈ args ∨ (∃ r, v ∈ s.items r) ∨ ∃ r name, (s.fields r).get? name = some v

/-- What a call of a builtin with some arguments comes to. -/
inductive Answers (s : Store) (args : List Value) : Builtin → Reply → Prop where
  | failure (b : Builtin) (cause : Cause) : Answers s args b (.failure cause s)
  | value (b : Builtin) {v : Value} (hv : s.AtHand args v) : Answers s args b (.value v s)
  | array (b : Builtin) {items : List Value} (hitems : ∀ v ∈ items, s.AtHand args v) :
      Answers s args b (Reply.array s items)
  | random :
      Answers s args .random (.value (.number s.supply.number) { s with supply := s.supply.draw })
  | refuse {b : Builtin} (hb : b.writes = true) (cause : Cause) (output : Output) :
      Answers s args b (.failure cause { s with output := output })
  | write {b : Builtin} {v : Value} (hb : b.writes = true) (hv : s.AtHand args v)
      (output : Output) : Answers s args b (.value v { s with output := output })
  | push {r : ArrayRef} {vs : List Value} (x : Float) (hargs : args = .array r :: vs) :
      Answers s args .push (.value (.number x) (s.pushItems r vs))
  | pop {r : ArrayRef} {v : Value} (hv : v ∈ s.items r) :
      Answers s args .pop (.value v (s.popItem r))
  | put {r : InstanceRef} {v : Value} (name : Text) (hv : v ∈ args) :
      Answers s args .put (.value v (s.putField r name v))
  | map {r : ArrayRef} {f : Value} (hargs : args = [.array r, f]) (hf : f.isCallable = true) :
      Answers s args .map (Reply.map s f [] (s.items r).toList)
  | filter {r : ArrayRef} {f : Value} (hargs : args = [.array r, f]) (hf : f.isCallable = true) :
      Answers s args .filter (Reply.filter s f [] (s.items r).toList)
  | forEach {r : ArrayRef} {f : Value} (hargs : args = [.array r, f]) (hf : f.isCallable = true) :
      Answers s args .forEach (Reply.visit s f (s.items r).toList)
  | find {r : ArrayRef} {f : Value} (hargs : args = [.array r, f]) (hf : f.isCallable = true) :
      Answers s args .find (Reply.find s f (s.items r).toList)
  | reduce {r : ArrayRef} {f acc : Value} (hargs : args = [.array r, f, acc])
      (hf : f.isCallable = true) :
      Answers s args .reduce (Reply.fold s f acc (s.items r).toList)
  | sort {r : ArrayRef} {f : Value} (hargs : args = [.array r, f]) (hf : f.isCallable = true) :
      Answers s args .sort (Reply.sort s f (Sorting.sort (s.items r).toList))
  | call {r : InstanceRef} {name : Text} {rest : List Value} {f : Value}
      (hargs : args = .object r :: .string name :: rest) (hf : s.method? r name = some f) :
      Answers s args .call (.become f (.object r :: rest) s)

/-- A computation that may fail, with a property of what it gives. -/
def Yields {α : Type} (P : α → Prop) : Except Cause α → Prop
  | .ok a => P a
  | .error _ => True

section Yields

variable {α β : Type} {P : β → Prop}

/-- A property may be weakened. -/
theorem Yields.mono {Q : β → Prop} {x : Except Cause β} (hx : Yields Q x) (h : ∀ b, Q b → P b) :
    Yields P x := by
  cases x with
  | error cause => exact trivial
  | ok b => exact h b hx

/-- A computation that gives a value has every property that the value has. -/
theorem yields_pure {b : β} (h : P b) : Yields P (pure b : Except Cause β) := h

/-- A computation that fails gives nothing, so nothing is asked of it. -/
theorem yields_throw (cause : Cause) : Yields P (throw cause : Except Cause β) := trivial

/-- Two computations one after the other. -/
theorem Yields.bind {x : Except Cause α} {f : α → Except Cause β}
    (h : ∀ a, x = .ok a → Yields P (f a)) : Yields P (x >>= f) := by
  cases x with
  | error cause => exact trivial
  | ok a => exact h a rfl

end Yields

namespace Builtin

variable {b : Builtin} {s : Store} {args : List Value} {i : Nat}

/-- An argument that was read is one of the arguments, at its place. -/
theorem argument_eq_ok {v : Value} (h : argument args i = .ok v) : args[i]? = some v := by
  unfold argument at h
  split at h
  · rename_i w hw
    rw [hw, Except.ok.inj h]
  · exact nomatch h

/-- What is made of an argument is made of one that is there. -/
theorem argument_bind_eq_ok {α : Type} {f : Value → Except Cause α} {a : α}
    (h : (argument args i >>= f) = .ok a) : ∃ v, args[i]? = some v ∧ f v = .ok a := by
  cases hv : argument args i with
  | error cause =>
    rw [hv] at h
    exact nomatch h
  | ok v =>
    rw [hv] at h
    exact ⟨v, argument_eq_ok hv, h⟩

/-- An array that was read as an argument stands at its place among the arguments. -/
theorem arrayAt_eq_ok {r : ArrayRef} (h : arrayAt b args i = .ok r) :
    args[i]? = some (.array r) := by
  obtain ⟨v, hv, h⟩ := argument_bind_eq_ok h
  cases v with
  | array r' =>
    obtain rfl := Except.ok.inj h
    exact hv
  | _ => exact nomatch h

/-- An instance that was read as an argument stands at its place among the arguments. -/
theorem instanceAt_eq_ok {r : InstanceRef} (h : instanceAt b args i = .ok r) :
    args[i]? = some (.object r) := by
  obtain ⟨v, hv, h⟩ := argument_bind_eq_ok h
  cases v with
  | object r' =>
    obtain rfl := Except.ok.inj h
    exact hv
  | _ => exact nomatch h

/-- A text that was read as an argument stands at its place among the arguments. -/
theorem textAt_eq_ok {t : Text} (h : textAt b args i = .ok t) : args[i]? = some (.string t) := by
  obtain ⟨v, hv, h⟩ := argument_bind_eq_ok h
  cases v with
  | string t' =>
    obtain rfl := Except.ok.inj h
    exact hv
  | _ => exact nomatch h

/-- A function that was read as an argument stands at its place among the arguments, and it can be
called. -/
theorem callableAt_eq_ok {f : Value} (h : callableAt b args i = .ok f) :
    args[i]? = some f ∧ f.isCallable = true := by
  obtain ⟨v, hv, h⟩ := argument_bind_eq_ok h
  unfold Value.toCallable at h
  split_ifs at h with hcallable
  obtain rfl := Except.ok.inj h
  exact ⟨hv, hcallable⟩

/-- The arguments from a place on are what is left when those in front of it are dropped. -/
theorem argumentsFrom_eq_ok {more : List Value} (h : argumentsFrom args i = .ok more) :
    more = args.drop i := by
  unfold argumentsFrom at h
  split_ifs at h
  exact (Except.ok.inj h).symm

/-- An element that was read is the one at its place. -/
theorem item_eq_ok {α : Type} {xs : Array α} {x : α} (h : item xs i = .ok x) : xs[i]? = some x := by
  unfold item at h
  split at h
  · rename_i y hy
    rw [hy, Except.ok.inj h]
  · cases h

/-- Every atom is at hand. -/
theorem atHand_atom {v : Value} (h : v.IsAtom) : s.AtHand args v := .inl h

/-- The arguments are at hand. -/
theorem atHand_argument {v : Value} (h : argument args i = .ok v) : s.AtHand args v :=
  .inr (.inl (List.mem_of_getElem? (argument_eq_ok h)))

/-- Arithmetic on two numbers gives an atom. -/
theorem yields_arithmetic (op : Float → Float → Float) :
    Yields (s.AtHand args) (arithmetic b op args) :=
  Yields.bind fun _ _ => Yields.bind fun _ _ => yields_pure (atHand_atom trivial)

/-- Comparing two values gives an atom. -/
theorem yields_compare (test : Bool → Bool → Bool) : Yields (s.AtHand args) (compare b test args) :=
  Yields.bind fun _ _ => Yields.bind fun _ _ => Yields.bind fun _ _ => Yields.bind fun _ _ =>
    yields_pure (atHand_atom trivial)

/-- Arithmetic on one number gives an atom. -/
theorem yields_unary (op : Float → Float) : Yields (s.AtHand args) (unary b op args) :=
  Yields.bind fun _ _ => yields_pure (atHand_atom trivial)

/-- The least or greatest of some numbers is an atom. -/
theorem yields_extreme (op : Float → Float → Float) (best : Float) (vs : List Value) :
    Yields (s.AtHand args) (extreme b op best vs) := by
  induction vs generalizing best with
  | nil => exact atHand_atom trivial
  | cons v rest ih =>
    refine Yields.bind fun x _ => ?_
    split_ifs
    · exact yields_pure (atHand_atom trivial)
    · exact ih _

/-- Part of a text is an atom. -/
theorem yields_textPart (t : Text) (first stop : Nat) :
    Yields Value.IsAtom (textPart t first stop) := by
  unfold textPart
  split_ifs
  · trivial
  · trivial

/-- Elements that are chosen from an array at hand are at hand. -/
theorem yields_item (r : ArrayRef) (i : Nat) : Yields (s.AtHand args) (item (s.items r) i) := by
  unfold item
  split
  · rename_i v hv
    exact .inr (.inr (.inl ⟨r, Array.mem_of_getElem? hv⟩))
  · trivial

/-- A builtin that changes nothing gives a value at hand. -/
theorem yields_pureResult {result : Except Cause Value} (h : pureResult? b s args = some result) :
    Yields (s.AtHand args) result := by
  cases b with
  | subtract | multiply | divide =>
    obtain rfl := Option.some.inj h
    exact yields_arithmetic _
  | less | greater | lessEqual | greaterEqual =>
    obtain rfl := Option.some.inj h
    exact yields_compare _
  | abs | floor | ceil | round =>
    obtain rfl := Option.some.inj h
    exact yields_unary _
  | min | max =>
    obtain rfl := Option.some.inj h
    exact yields_extreme _ _ _
  | concat | undeclared =>
    obtain rfl := Option.some.inj h
    exact atHand_atom trivial
  | negation | typeOf | toLowerCase | toUpperCase | trim | includes | indexOf =>
    obtain rfl := Option.some.inj h
    exact Yields.bind fun _ _ => yields_pure (atHand_atom trivial)
  | equal | notEqual | startsWith | endsWith =>
    obtain rfl := Option.some.inj h
    exact Yields.bind fun _ _ => Yields.bind fun _ _ => yields_pure (atHand_atom trivial)
  | replace | repeatText =>
    obtain rfl := Option.some.inj h
    exact Yields.bind fun _ _ => Yields.bind fun _ _ => Yields.bind fun _ _ =>
      yields_pure (atHand_atom trivial)
  | join =>
    obtain rfl := Option.some.inj h
    refine Yields.bind fun r _ => ?_
    split_ifs
    · exact Yields.bind fun _ _ => yields_pure (atHand_atom trivial)
    · exact atHand_atom trivial
  | add =>
    obtain rfl := Option.some.inj h
    refine Yields.bind fun x _ => Yields.bind fun y _ => ?_
    split
    · exact atHand_atom trivial
    · exact atHand_atom trivial
    · exact yields_arithmetic _
  | conjunction | disjunction =>
    obtain rfl := Option.some.inj h
    refine Yields.bind fun x hx => Yields.bind fun y hy => ?_
    apply yields_pure
    split_ifs
    · exact atHand_argument ‹_›
    · exact atHand_argument ‹_›
  | substring =>
    obtain rfl := Option.some.inj h
    refine Yields.bind fun t _ => Yields.bind fun x _ => Yields.bind fun stop _ => ?_
    split_ifs
    · exact (yields_textPart _ _ _).mono fun _ => atHand_atom
    · exact (yields_textPart _ _ _).mono fun _ => atHand_atom
  | charAt =>
    obtain rfl := Option.some.inj h
    refine Yields.bind fun t _ => Yields.bind fun x _ => ?_
    dsimp only
    split_ifs
    · exact atHand_atom trivial
    · exact (yields_textPart _ _ _).mono fun _ => atHand_atom
  | length =>
    obtain rfl := Option.some.inj h
    refine Yields.bind fun v _ => ?_
    split
    · exact atHand_atom trivial
    · exact atHand_atom trivial
    · exact yields_throw _
  | element =>
    obtain rfl := Option.some.inj h
    refine Yields.bind fun r _ => Yields.bind fun v _ => ?_
    split
    · refine Yields.bind fun i _ => ?_
      split_ifs
      · exact yields_throw _
      · exact yields_item _ _
    · exact yields_throw _
  | get =>
    obtain rfl := Option.some.inj h
    refine Yields.bind fun r _ => Yields.bind fun field _ => ?_
    cases hfield : (s.fields r).get? field with
    | none => exact yields_pure (atHand_atom trivial)
    | some v => exact yields_pure (.inr (.inr (.inr ⟨r, field, hfield⟩)))
  | _ => exact nomatch h

/-- How many arguments a builtin that was not refused has. -/
theorem length_of_checkArity (h : checkArity b args.length = .ok ()) :
    b.signature.least ≤ args.length ∧
      ∀ most, b.signature.most = some most → args.length ≤ most := by
  unfold checkArity at h
  split_ifs at h with hleast
  refine ⟨Nat.le_of_not_lt hleast, fun most hmost => ?_⟩
  rw [hmost] at h
  dsimp only at h
  split_ifs at h with hlt
  exact Nat.le_of_not_lt hlt

/-- Two arguments that are there are all of them where no more are allowed. -/
theorem eq_pair {x y : Value} (hlength : args.length ≤ 2) (hx : args[0]? = some x)
    (hy : args[1]? = some y) : args = [x, y] := by
  match args, hlength with
  | [a, b], _ =>
    obtain rfl := Option.some.inj hx
    obtain rfl := Option.some.inj hy
    rfl

/-- Three arguments that are there are all of them where no more are allowed. -/
theorem eq_triple {x y z : Value} (hlength : args.length ≤ 3) (hx : args[0]? = some x)
    (hy : args[1]? = some y) (hz : args[2]? = some z) : args = [x, y, z] := by
  match args, hlength with
  | [a, b, c], _ =>
    obtain rfl := Option.some.inj hx
    obtain rfl := Option.some.inj hy
    obtain rfl := Option.some.inj hz
    rfl

/-- A builtin that calls its second argument on the elements of its first one has got an array and
something callable. -/
theorem yields_callback {start : Store → Value → List Value → Reply} {P : (Store → Reply) → Prop}
    (hlength : args.length ≤ 2)
    (h : ∀ r f, args = [.array r, f] → f.isCallable = true →
      P fun s' => start s' f (s.items r).toList) : Yields P (callback b s args start) := by
  refine Yields.bind fun r hr => Yields.bind fun f hf => ?_
  obtain ⟨hf, hcallable⟩ := callableAt_eq_ok hf
  exact h r f (eq_pair hlength (arrayAt_eq_ok hr) hf) hcallable

/-- The elements of arrays are at hand. -/
theorem atHand_item {r : ArrayRef} {v : Value} (h : v ∈ (s.items r).toList) : s.AtHand args v :=
  .inr (.inr (.inl ⟨r, Array.mem_def.mpr h⟩))

/-- A part of an array is made of its elements. -/
theorem mem_of_part {α : Type} {xs : Array α} {first stop : Nat} {chosen : List α}
    (h : part xs first stop = .ok chosen) : ∀ x ∈ chosen, x ∈ xs.toList := by
  unfold part at h
  split_ifs at h
  obtain rfl := Except.ok.inj h
  intro x hx
  rw [Array.toList_extract, List.extract_eq_take_drop] at hx
  exact List.mem_of_mem_drop (List.mem_of_mem_take hx)

/-- A builtin that changes the store or calls back does one of the things listed. -/
theorem yields_effect (harity : checkArity b args.length = .ok ()) :
    Yields (fun act => Answers s args b (act s)) (effect b s args) := by
  obtain ⟨hleast, hmost⟩ := length_of_checkArity harity
  cases b with
  | random => exact .random
  | split =>
    refine Yields.bind fun t _ => Yields.bind fun sep _ => yields_pure (.array _ fun v hv => ?_)
    obtain ⟨piece, -, rfl⟩ := List.mem_map.mp hv
    exact atHand_atom trivial
  | array => exact .array _ fun v hv => .inr (.inl hv)
  | push =>
    refine Yields.bind fun r hr => Yields.bind fun more hmore => yields_pure ?_
    obtain ⟨vs, rfl⟩ := List.head?_eq_some_iff.mp (List.head?_eq_getElem? ▸ arrayAt_eq_ok hr)
    rw [argumentsFrom_eq_ok hmore]
    exact .push _ rfl
  | pop =>
    refine Yields.bind fun r _ => ?_
    split_ifs
    · exact .value _ (atHand_atom trivial)
    · refine Yields.bind fun v hv => yields_pure ?_
      exact .pop (Array.mem_of_getElem? (item_eq_ok hv))
  | slice =>
    refine Yields.bind fun v _ => ?_
    split
    · refine Yields.bind fun x _ => Yields.bind fun stop _ => Yields.bind fun chosen hchosen => ?_
      exact .array _ fun v hv => atHand_item (mem_of_part hchosen v hv)
    · refine Yields.bind fun x _ => Yields.bind fun stop _ => Yields.bind fun v hv => ?_
      have hatom : Yields Value.IsAtom (.ok v) := hv ▸ yields_textPart _ _ _
      exact .value _ (atHand_atom hatom)
    · exact yields_throw _
  | map => exact yields_callback (hmost 2 rfl) fun _ _ => .map
  | filter => exact yields_callback (hmost 2 rfl) fun _ _ => .filter
  | forEach => exact yields_callback (hmost 2 rfl) fun _ _ => .forEach
  | find => exact yields_callback (hmost 2 rfl) fun _ _ => .find
  | reduce =>
    refine Yields.bind fun r hr => Yields.bind fun f hf => Yields.bind fun acc hacc => ?_
    obtain ⟨hf, hcallable⟩ := callableAt_eq_ok hf
    exact .reduce (eq_triple (hmost 3 rfl) (arrayAt_eq_ok hr) hf (argument_eq_ok hacc)) hcallable
  | sort =>
    refine Yields.bind fun r hr => ?_
    dsimp only
    split_ifs
    · refine Yields.bind fun f hf => ?_
      obtain ⟨hf, hcallable⟩ := callableAt_eq_ok hf
      exact .sort (eq_pair (hmost 2 rfl) (arrayAt_eq_ok hr) hf) hcallable
    · refine Yields.bind fun items hitems => .array _ fun v hv => ?_
      have hperm := (@Sorting.all_sort _ (fun _ => True) _ fun _ _ => trivial).of_run hitems
      exact atHand_item (hperm.mem_iff.mpr hv)
  | reverse =>
    refine Yields.bind fun r _ => .array _ fun v hv => ?_
    exact atHand_item (List.mem_reverse.mp hv)
  | put =>
    refine Yields.bind fun r _ => Yields.bind fun field _ => Yields.bind fun v hv => ?_
    exact .put field (List.mem_of_getElem? (argument_eq_ok hv))
  | call =>
    refine Yields.bind fun r hr => Yields.bind fun name hname => Yields.bind fun more hmore => ?_
    have hr := instanceAt_eq_ok hr
    have hname := textAt_eq_ok hname
    obtain rfl := argumentsFrom_eq_ok hmore
    cases hf : s.method? r name with
    | none => exact yields_throw _
    | some f =>
      match args, hr, hname with
      | _ :: _ :: rest, hr, hname =>
        obtain rfl := Option.some.inj hr
        obtain rfl := Option.some.inj hname
        exact .call rfl hf
  | print =>
    refine Yields.bind fun v hv => yields_pure ?_
    dsimp only
    split
    · exact .write rfl (atHand_argument hv) _
    · exact .refuse rfl _ _
  | help =>
    have hwrite (output : Output) :
        Answers s args help (.value (.boolean true) { s with output := output }) :=
      @Answers.write s args help (.boolean true) rfl (atHand_atom trivial) output
    simp only [effect]
    split_ifs
    · exact Yields.bind fun _ _ => Yields.bind fun _ _ => yields_pure (hwrite _)
    · exact Yields.bind fun _ _ => Yields.bind fun _ _ => yields_pure (hwrite _)
  | _ => trivial

/-- A call of a builtin comes to one of the things listed. -/
theorem run_answers (b : Builtin) (s : Store) (args : List Value) :
    Answers s args b (b.run s args) := by
  unfold run
  cases harity : checkArity b args.length with
  | error cause => exact .failure b cause
  | ok _ =>
    dsimp only
    cases hpure : pureResult? b s args with
    | some result =>
      have hyields := yields_pureResult hpure
      cases result with
      | error cause => exact .failure b cause
      | ok v => exact .value b hyields
    | none =>
      have hyields := @yields_effect b s args harity
      dsimp only
      cases heffect : effect b s args with
      | error cause => exact .failure b cause
      | ok act =>
        rw [heffect] at hyields
        exact hyields

end Builtin

end TinyScript
