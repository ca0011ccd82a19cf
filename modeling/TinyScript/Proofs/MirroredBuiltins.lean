import TinyScript.Proofs.Renaming
import TinyScript.Proofs.SortImages

/-!
# Builtins in stores that mirror each other

In a store that mirrors another one, a builtin does with corresponding arguments what it does there:
it fails for the same cause, or gives a value that corresponds, or calls a function that
corresponds, and leaves a store that mirrors the other one. Chance is the exception.
-/

namespace TinyScript

/-- Two computations that fail for the same cause, or give results that correspond. -/
inductive Alike {α β : Type} (R : α → β → Prop) : Except Cause α → Except Cause β → Prop where
  | ok {a : α} {b : β} (h : R a b) : Alike R (.ok a) (.ok b)
  | error (cause : Cause) : Alike R (.error cause) (.error cause)

namespace Alike

variable {α α' β β' : Type} {R : α → β → Prop} {S : α' → β' → Prop}

/-- Computations that are the same fail for the same cause or give the same. -/
theorem of_eq {x y : Except Cause α} (h : y = x) : Alike Eq x y := by
  rw [h]
  cases x with
  | ok a => exact .ok rfl
  | error cause => exact .error cause

/-- Computations in two parts are alike if their parts are. -/
theorem bind {x : Except Cause α} {y : Except Cause β} {f : α → Except Cause α'}
    {g : β → Except Cause β'} (h : Alike R x y) (hfg : ∀ a b, R a b → Alike S (f a) (g b)) :
    Alike S (x >>= f) (y >>= g) := by
  cases h with
  | ok hab => exact hfg _ _ hab
  | error cause => exact .error cause

end Alike

/-- The values correspond. -/
def Renaming.Pairs (r : Renaming) (v w : Value) : Prop := w = r.value v

/-- The values correspond, and the first one is good in a store. -/
def Renaming.GoodPairs (r : Renaming) (x : Extent) (v w : Value) : Prop :=
  w = r.value v ∧ v.Within x

section Atoms

variable {r : Renaming}

/-- The same number corresponds to itself. -/
theorem alike_number {x y : Float} (h : y = x) :
    Alike r.Pairs (pure (.number x)) (pure (.number y)) :=
  .ok (congrArg Value.number h)

/-- The same text corresponds to itself. -/
theorem alike_string {t u : Text} (h : u = t) :
    Alike r.Pairs (pure (.string t)) (pure (.string u)) :=
  .ok (congrArg Value.string h)

/-- The same boolean corresponds to itself. -/
theorem alike_boolean {p q : Bool} (h : q = p) :
    Alike r.Pairs (pure (.boolean p)) (pure (.boolean q)) :=
  .ok (congrArg Value.boolean h)

end Atoms

namespace Builtin

section Arguments

variable {r : Renaming} {x : Extent} {b : Builtin} {args : List Value} {i : Nat}

/-- Reading an argument gives what corresponds. -/
theorem alike_argument (hargs : ∀ v ∈ args, v.Within x) :
    Alike (r.GoodPairs x) (argument args i) (argument (args.map r.value) i) := by
  unfold argument
  rw [List.getElem?_map]
  cases hv : args[i]? with
  | none => exact .error _
  | some v => exact .ok ⟨rfl, hargs v (List.mem_of_getElem? hv)⟩

/-- An argument is looked at in the same way if all that is asked of it is the same. -/
theorem argument_bind_map {α : Type} {f : Value → Except Cause α}
    (hf : ∀ v, f (r.value v) = f v) :
    (argument (args.map r.value) i >>= f) = argument args i >>= f := by
  unfold argument
  rw [List.getElem?_map]
  cases args[i]? with
  | none => rfl
  | some v => exact hf v

/-- Corresponding arguments have the same numbers. -/
@[simp] theorem numberAt_map : numberAt b (args.map r.value) i = numberAt b args i :=
  argument_bind_map (r.toNumber_value b.label)

/-- Corresponding arguments have the same texts. -/
@[simp] theorem textAt_map : textAt b (args.map r.value) i = textAt b args i :=
  argument_bind_map (r.toText_value b.label)

/-- Corresponding arguments have the same indices. -/
@[simp] theorem indexAt_map : indexAt b (args.map r.value) i = indexAt b args i := by
  unfold indexAt
  rw [numberAt_map]

/-- Corresponding arguments have the same ends of ranges. -/
@[simp] theorem stopAt_map {n : Nat} {fromEnd : Bool} :
    stopAt b (args.map r.value) i n fromEnd = stopAt b args i n fromEnd := by
  unfold stopAt
  rw [numberAt_map, List.length_map]

/-- Reading the arguments from a place on gives what corresponds. -/
theorem alike_argumentsFrom :
    Alike (fun more more' => more' = more.map r.value) (argumentsFrom args i)
      (argumentsFrom (args.map r.value) i) := by
  unfold argumentsFrom
  rw [List.length_map]
  split_ifs
  · exact .ok List.map_drop.symm
  · exact .error _

/-- Reading an array among the arguments gives the array that corresponds. -/
theorem alike_arrayAt (hargs : ∀ v ∈ args, v.Within x) :
    Alike (fun a a' => a' = a + r.arrays) (arrayAt b args i) (arrayAt b (args.map r.value) i) := by
  refine (alike_argument hargs).bind ?_
  rintro v _ ⟨rfl, -⟩
  cases v with
  | array a => exact .ok rfl
  | _ => exact .error _

/-- Reading a function among the arguments gives what corresponds. -/
theorem alike_callableAt (hargs : ∀ v ∈ args, v.Within x) :
    Alike r.Pairs (callableAt b args i) (callableAt b (args.map r.value) i) := by
  refine (alike_argument hargs).bind ?_
  rintro v _ ⟨rfl, -⟩
  unfold Value.toCallable
  rw [r.isCallable_value, r.type_value]
  split_ifs
  · exact .ok rfl
  · exact .error _

/-- Reading an instance among the arguments gives the instance that corresponds. -/
theorem alike_instanceAt (hargs : ∀ v ∈ args, v.Within x) :
    Alike (fun j j' => j' = j + r.instances ∧ j < x.instances) (instanceAt b args i)
      (instanceAt b (args.map r.value) i) := by
  refine (alike_argument hargs).bind ?_
  rintro v _ ⟨rfl, hv⟩
  cases v with
  | object j => exact .ok ⟨rfl, hv⟩
  | _ => exact .error _

/-- Corresponding values are compared in the same way. -/
@[simp] theorem comesBefore_value (operation : Text) (v w : Value) :
    comesBefore operation (r.value v) (r.value w) = comesBefore operation v w := by
  cases v <;> cases w <;> rfl

/-- Comparing corresponding arguments gives the same. -/
theorem alike_compare (hargs : ∀ v ∈ args, v.Within x) {test : Bool → Bool → Bool} :
    Alike r.Pairs (compare b test args) (compare b test (args.map r.value)) := by
  refine (alike_argument hargs).bind ?_
  rintro v _ ⟨rfl, -⟩
  refine (alike_argument hargs).bind ?_
  rintro w _ ⟨rfl, -⟩
  refine (Alike.of_eq (comesBefore_value ..)).bind ?_
  rintro less _ rfl
  refine (Alike.of_eq (comesBefore_value ..)).bind ?_
  rintro greater _ rfl
  exact alike_boolean rfl

/-- Arithmetic on two corresponding arguments gives the same. -/
theorem alike_arithmetic {op : Float → Float → Float} :
    Alike r.Pairs (arithmetic b op args) (arithmetic b op (args.map r.value)) := by
  refine (Alike.of_eq numberAt_map).bind ?_
  rintro y _ rfl
  refine (Alike.of_eq numberAt_map).bind ?_
  rintro z _ rfl
  exact alike_number rfl

/-- Arithmetic on a corresponding argument gives the same. -/
theorem alike_unary {op : Float → Float} :
    Alike r.Pairs (unary b op args) (unary b op (args.map r.value)) := by
  refine (Alike.of_eq numberAt_map).bind ?_
  rintro y _ rfl
  exact alike_number rfl

/-- The least or greatest of corresponding values is the same. -/
theorem alike_extreme {op : Float → Float → Float} (best : Float) (vs : List Value) :
    Alike r.Pairs (extreme b op best vs) (extreme b op best (vs.map r.value)) := by
  induction vs generalizing best with
  | nil => exact .ok rfl
  | cons v vs ih =>
    refine (Alike.of_eq (r.toNumber_value b.label v)).bind ?_
    rintro y _ rfl
    split_ifs
    · exact alike_number rfl
    · exact ih _

/-- Part of the same text is the same. -/
theorem alike_textPart {t : Text} {first stop : Nat} :
    Alike r.Pairs (textPart t first stop) (textPart t first stop) := by
  unfold textPart
  split_ifs
  · exact .ok rfl
  · exact .error _

/-- The element at a place corresponds to the one there. -/
theorem alike_item {xs : Array Value} :
    Alike r.Pairs (item xs i) (item (xs.map r.value) i) := by
  unfold item
  rw [Array.getElem?_map]
  cases xs[i]? with
  | none => exact .error _
  | some v => exact .ok rfl

/-- Part of an array corresponds to the same part of the array that corresponds. -/
theorem alike_part {xs : Array Value} {first stop : Nat} :
    Alike (fun vs ws => ws = vs.map r.value) (part xs first stop)
      (part (xs.map r.value) first stop) := by
  unfold part
  rw [Array.size_map]
  split_ifs
  · refine .ok ?_
    simp
  · exact .error _

end Arguments

section Results

variable {r : Renaming} {s s' : Store} {b : Builtin} {args : List Value}

/-- The first occurrence of a value or of a text is at the same place. -/
theorem alike_position (h : s.Mirrors r s') (hargs : ∀ v ∈ args, v.Within s.extent) :
    Alike Eq (position? b s args) (position? b s' (args.map r.value)) := by
  refine (alike_argument hargs).bind ?_
  rintro v _ ⟨rfl, -⟩
  refine (alike_argument hargs).bind ?_
  rintro w _ ⟨rfl, -⟩
  cases v with
  | array a =>
    refine .ok ?_
    rw [h.items, Array.findIdx?_map]
    simp only [Function.comp_def, r.same_value]
  | string t =>
    refine (Alike.of_eq (r.toText_value b.label w)).bind ?_
    rintro n _ rfl
    exact .of_eq rfl
  | _ => exact .error _

/-- Something made of one argument corresponds to what is made of the corresponding one. -/
theorem alike_oneValue (hargs : ∀ v ∈ args, v.Within s.extent) {f : Value → Value}
    (hf : ∀ x, f (r.value x) = r.value (f x)) :
    Alike r.Pairs (argument args 0 >>= fun x => pure (f x))
      (argument (args.map r.value) 0 >>= fun x => pure (f x)) := by
  refine (alike_argument hargs).bind ?_
  rintro x _ ⟨rfl, -⟩
  exact .ok (hf x)

/-- Something made of two arguments corresponds to what is made of the corresponding ones. -/
theorem alike_twoValues (hargs : ∀ v ∈ args, v.Within s.extent) {f : Value → Value → Value}
    (hf : ∀ x y, f (r.value x) (r.value y) = r.value (f x y)) :
    Alike r.Pairs (argument args 0 >>= fun x => argument args 1 >>= fun y => pure (f x y))
      (argument (args.map r.value) 0 >>= fun x =>
        argument (args.map r.value) 1 >>= fun y => pure (f x y)) := by
  refine (alike_argument hargs).bind ?_
  rintro x _ ⟨rfl, -⟩
  refine (alike_argument hargs).bind ?_
  rintro y _ ⟨rfl, -⟩
  exact .ok (hf x y)

/-- Adding joins the same texts, or adds the same numbers. -/
theorem alike_add (h : s.Mirrors r s') (hs : s.WellFormed)
    (hargs : ∀ v ∈ args, v.Within s.extent) :
    Option.Rel (Alike r.Pairs) (pureResult? add s args)
      (pureResult? add s' (args.map r.value)) := by
  refine .some ((alike_argument hargs).bind ?_)
  rintro x _ ⟨rfl, hx⟩
  refine (alike_argument hargs).bind ?_
  rintro y _ ⟨rfl, hy⟩
  have htexts : s'.display (r.value x) ++ s'.display (r.value y) = s.display x ++ s.display y := by
    rw [h.display hs hx, h.display hs hy]
  cases x with
  | string t => exact alike_string htexts
  | _ =>
    cases y with
    | string u => exact alike_string htexts
    | _ => exact alike_arithmetic

/-- Joining the texts of all arguments gives the same text. -/
theorem alike_concat (h : s.Mirrors r s') (hs : s.WellFormed)
    (hargs : ∀ v ∈ args, v.Within s.extent) :
    Option.Rel (Alike r.Pairs) (pureResult? concat s args)
      (pureResult? concat s' (args.map r.value)) := by
  refine .some (alike_string ?_)
  rw [List.map_map]
  exact congrArg Text.concat (List.map_congr_left fun v hv => h.display hs (hargs v hv))

/-- A text made of a text is the same. -/
theorem alike_oneText {f : Text → Text} :
    Alike r.Pairs (textAt b args 0 >>= fun t => pure (.string (f t)))
      (textAt b (args.map r.value) 0 >>= fun t => pure (.string (f t))) := by
  refine (Alike.of_eq textAt_map).bind ?_
  rintro t _ rfl
  exact alike_string rfl

/-- What is asked about two texts has the same answer. -/
theorem alike_twoTexts {f : Text → Text → Bool} :
    Alike r.Pairs
      (textAt b args 0 >>= fun t => textAt b args 1 >>= fun u => pure (.boolean (f t u)))
      (textAt b (args.map r.value) 0 >>= fun t =>
        textAt b (args.map r.value) 1 >>= fun u => pure (.boolean (f t u))) := by
  refine (Alike.of_eq textAt_map).bind ?_
  rintro t _ rfl
  refine (Alike.of_eq textAt_map).bind ?_
  rintro u _ rfl
  exact alike_boolean rfl

/-- The same part is replaced by the same text. -/
theorem alike_replace :
    Option.Rel (Alike r.Pairs) (pureResult? replace s args)
      (pureResult? replace s' (args.map r.value)) := by
  refine .some ((Alike.of_eq textAt_map).bind ?_)
  rintro t _ rfl
  refine (Alike.of_eq textAt_map).bind ?_
  rintro needle _ rfl
  refine (Alike.of_eq textAt_map).bind ?_
  rintro replacement _ rfl
  exact alike_string rfl

/-- The same text is repeated as often. -/
theorem alike_repeatText :
    Option.Rel (Alike r.Pairs) (pureResult? repeatText s args)
      (pureResult? repeatText s' (args.map r.value)) := by
  refine .some ((Alike.of_eq textAt_map).bind ?_)
  rintro t _ rfl
  refine (Alike.of_eq indexAt_map).bind ?_
  rintro count _ rfl
  refine (Alike.of_eq rfl).bind ?_
  rintro result _ rfl
  exact alike_string rfl

/-- The same part is cut out of a text. -/
theorem alike_substring :
    Option.Rel (Alike r.Pairs) (pureResult? substring s args)
      (pureResult? substring s' (args.map r.value)) := by
  refine .some ((Alike.of_eq textAt_map).bind ?_)
  rintro t _ rfl
  refine (Alike.of_eq numberAt_map).bind ?_
  rintro x _ rfl
  refine (Alike.of_eq stopAt_map).bind ?_
  rintro stop _ rfl
  split_ifs
  · exact alike_textPart
  · exact alike_textPart

/-- The same character is taken from a text. -/
theorem alike_charAt :
    Option.Rel (Alike r.Pairs) (pureResult? charAt s args)
      (pureResult? charAt s' (args.map r.value)) := by
  refine .some ((Alike.of_eq textAt_map).bind ?_)
  rintro t _ rfl
  refine (Alike.of_eq numberAt_map).bind ?_
  rintro x _ rfl
  dsimp only
  split_ifs
  · exact alike_string rfl
  · exact alike_textPart

/-- Texts and arrays that correspond are equally long. -/
theorem alike_length (h : s.Mirrors r s') (hargs : ∀ v ∈ args, v.Within s.extent) :
    Option.Rel (Alike r.Pairs) (pureResult? length s args)
      (pureResult? length s' (args.map r.value)) := by
  refine .some ((alike_argument hargs).bind ?_)
  rintro x _ ⟨rfl, -⟩
  cases x with
  | array a => exact alike_number (by rw [h.items, Array.size_map])
  | string t => exact alike_number rfl
  | _ => exact .error _

/-- At the same index of an array stands the corresponding element. -/
theorem alike_element (h : s.Mirrors r s') (hargs : ∀ v ∈ args, v.Within s.extent) :
    Option.Rel (Alike r.Pairs) (pureResult? element s args)
      (pureResult? element s' (args.map r.value)) := by
  refine .some ((alike_arrayAt hargs).bind ?_)
  rintro a _ rfl
  rw [h.items, Array.size_map]
  refine (alike_argument hargs).bind ?_
  rintro x _ ⟨rfl, -⟩
  cases x with
  | number x =>
    refine (Alike.of_eq indexAt_map).bind ?_
    rintro i _ rfl
    split_ifs
    · exact .error _
    · exact alike_item
  | _ => exact .error _

/-- The elements of an array are joined to the same text. -/
theorem alike_join (h : s.Mirrors r s') (hs : s.WellFormed)
    (hargs : ∀ v ∈ args, v.Within s.extent) :
    Option.Rel (Alike r.Pairs) (pureResult? join s args)
      (pureResult? join s' (args.map r.value)) := by
  refine .some ((alike_arrayAt hargs).bind ?_)
  rintro a _ rfl
  have htexts : (s'.items (a + r.arrays)).toList.map s'.display =
      (s.items a).toList.map s.display := by
    rw [h.items, Array.toList_map, List.map_map]
    exact List.map_congr_left fun v hv => h.display hs (hs.items a v (Array.mem_def.mpr hv))
  rw [List.length_map, htexts]
  dsimp only
  split_ifs
  · refine (Alike.of_eq textAt_map).bind ?_
    rintro sep _ rfl
    exact alike_string rfl
  · exact alike_string rfl

/-- What is said about where something occurs is the same. -/
theorem alike_search (h : s.Mirrors r s') (hargs : ∀ v ∈ args, v.Within s.extent)
    {f : Option Nat → Value} (hf : ∀ found, f found = r.value (f found)) :
    Alike r.Pairs (position? b s args >>= fun found => pure (f found))
      (position? b s' (args.map r.value) >>= fun found => pure (f found)) := by
  refine (alike_position h hargs).bind ?_
  rintro found _ rfl
  exact .ok (hf found)

/-- Fields of the same name hold values that correspond. -/
theorem alike_get (h : s.Mirrors r s') (hargs : ∀ v ∈ args, v.Within s.extent) :
    Option.Rel (Alike r.Pairs) (pureResult? get s args)
      (pureResult? get s' (args.map r.value)) := by
  refine .some ((alike_instanceAt hargs).bind ?_)
  rintro i _ ⟨rfl, -⟩
  refine (Alike.of_eq textAt_map).bind ?_
  rintro field _ rfl
  refine .ok ?_
  rw [h.fields i field]
  cases (s.fields i).get? field <;> rfl

/-- A builtin that changes nothing gives values that correspond. -/
theorem alike_pureResult (h : s.Mirrors r s') (hs : s.WellFormed)
    (hargs : ∀ v ∈ args, v.Within s.extent) :
    Option.Rel (Alike r.Pairs) (pureResult? b s args) (pureResult? b s' (args.map r.value)) := by
  cases b with
  | add => exact alike_add h hs hargs
  | subtract | multiply | divide => exact .some alike_arithmetic
  | equal =>
    exact .some (alike_twoValues hargs fun x y => congrArg Value.boolean (r.same_value x y))
  | notEqual =>
    refine .some (alike_twoValues hargs fun x y => ?_)
    exact congrArg (fun same => Value.boolean !same) (r.same_value x y)
  | less | greater | lessEqual | greaterEqual => exact .some (alike_compare hargs)
  | conjunction | disjunction =>
    refine .some (alike_twoValues hargs fun x y => ?_)
    rw [r.isTruthy_value]
    split_ifs <;> rfl
  | negation =>
    refine .some (alike_oneValue hargs fun x => ?_)
    exact congrArg (fun truthy => Value.boolean !truthy) (r.isTruthy_value x)
  | abs | floor | ceil | round => exact .some alike_unary
  | min | max => exact .some (alike_extreme _ args)
  | typeOf =>
    refine .some (alike_oneValue hargs fun x => ?_)
    exact congrArg (fun type => Value.string (Text.ofString type.name)) (r.type_value x)
  | concat => exact alike_concat h hs hargs
  | substring => exact alike_substring
  | charAt => exact alike_charAt
  | toLowerCase | toUpperCase | trim => exact .some alike_oneText
  | replace => exact alike_replace
  | startsWith | endsWith => exact .some alike_twoTexts
  | repeatText => exact alike_repeatText
  | length => exact alike_length h hargs
  | element => exact alike_element h hargs
  | join => exact alike_join h hs hargs
  | includes => exact .some (alike_search h hargs fun _ => rfl)
  | indexOf => exact .some (alike_search h hargs fun _ => rfl)
  | get => exact alike_get h hargs
  | undeclared => exact .some (alike_boolean rfl)
  | _ => exact .none

end Results

end Builtin

/-- A waiting builtin with values that correspond. -/
def Renaming.pending (r : Renaming) : Pending → Pending
  | .mapping f done rest => .mapping (r.value f) (done.map r.value) (rest.map r.value)
  | .filtering f item done rest =>
    .filtering (r.value f) (r.value item) (done.map r.value) (rest.map r.value)
  | .visiting f rest => .visiting (r.value f) (rest.map r.value)
  | .finding f item rest => .finding (r.value f) (r.value item) (rest.map r.value)
  | .folding f rest => .folding (r.value f) (rest.map r.value)
  | .sorting f next =>
    .sorting (r.value f) fun answer => (next answer).image r.value (List.map r.value)

/-- The same kind of reply, with values that correspond and stores that mirror each other. -/
inductive Reply.Mirrors (r : Renaming) : Reply → Reply → Prop where
  | value {s s' : Store} (v : Value) (h : s.Mirrors r s') :
      Mirrors r (.value v s) (.value (r.value v) s')
  | failure {s s' : Store} (cause : Cause) (h : s.Mirrors r s') :
      Mirrors r (.failure cause s) (.failure cause s')
  | await {s s' : Store} (f : Value) (args : List Value) (pending : Pending) (h : s.Mirrors r s') :
      Mirrors r (.await f args pending s)
        (.await (r.value f) (args.map r.value) (r.pending pending) s')
  | become {s s' : Store} (f : Value) (args : List Value) (h : s.Mirrors r s') :
      Mirrors r (.become f args s) (.become (r.value f) (args.map r.value) s')

namespace Reply.Mirrors

variable {r : Renaming} {s s' : Store} (h : s.Mirrors r s')
include h

/-- New arrays with corresponding elements correspond. -/
theorem array (items : List Value) :
    (Reply.array s items).Mirrors r (Reply.array s' (items.map r.value)) := by
  have hmirrors := h.newArray items.toArray
  rw [List.map_toArray] at hmirrors
  have hreply := Reply.Mirrors.value (s.newArray items.toArray).1 hmirrors
  rwa [← h.value_newArray items.toArray (items.map r.value).toArray] at hreply

/-- Mapping with corresponding functions over corresponding elements corresponds. -/
theorem map (f : Value) (done rest : List Value) :
    (Reply.map s f done rest).Mirrors r
      (Reply.map s' (r.value f) (done.map r.value) (rest.map r.value)) := by
  cases rest with
  | nil =>
    have hreply := array h done.reverse
    rwa [List.map_reverse] at hreply
  | cons x rest => exact .await f [x] (.mapping f done rest) h

/-- Filtering with corresponding functions over corresponding elements corresponds. -/
theorem filter (f : Value) (done rest : List Value) :
    (Reply.filter s f done rest).Mirrors r
      (Reply.filter s' (r.value f) (done.map r.value) (rest.map r.value)) := by
  cases rest with
  | nil =>
    have hreply := array h done.reverse
    rwa [List.map_reverse] at hreply
  | cons x rest => exact .await f [x] (.filtering f x done rest) h

/-- Visiting corresponding elements with corresponding functions corresponds. -/
theorem visit (f : Value) (rest : List Value) :
    (Reply.visit s f rest).Mirrors r (Reply.visit s' (r.value f) (rest.map r.value)) := by
  cases rest with
  | nil => exact .value (.boolean false) h
  | cons x rest => exact .await f [x] (.visiting f rest) h

/-- Finding with corresponding functions among corresponding elements corresponds. -/
theorem find (f : Value) (rest : List Value) :
    (Reply.find s f rest).Mirrors r (Reply.find s' (r.value f) (rest.map r.value)) := by
  cases rest with
  | nil => exact .value (.boolean false) h
  | cons x rest => exact .await f [x] (.finding f x rest) h

/-- Folding with corresponding functions over corresponding elements corresponds. -/
theorem fold (f acc : Value) (rest : List Value) :
    (Reply.fold s f acc rest).Mirrors r
      (Reply.fold s' (r.value f) (r.value acc) (rest.map r.value)) := by
  cases rest with
  | nil => exact .value acc h
  | cons x rest => exact .await f [acc, x] (.folding f rest) h

/-- Sorting with corresponding comparators corresponds, where the questions are about corresponding
elements. -/
theorem sort (f : Value) (query : Query Value (List Value)) :
    (Reply.sort s f query).Mirrors r
      (Reply.sort s' (r.value f) (query.image r.value (List.map r.value))) := by
  cases query with
  | done items => exact array h items
  | ask x y next => exact .await f [x, y] (.sorting f next) h

/-- A waiting builtin goes on in the same way. -/
theorem resume (v : Value) (pending : Pending) :
    (pending.resume s v).Mirrors r ((r.pending pending).resume s' (r.value v)) := by
  cases pending with
  | mapping f done rest => exact map h f (v :: done) rest
  | filtering f item done rest =>
    simp only [Renaming.pending, Pending.resume, r.isTruthy_value]
    split_ifs
    · exact filter h f (item :: done) rest
    · exact filter h f done rest
  | visiting f rest => exact visit h f rest
  | finding f item rest =>
    simp only [Renaming.pending, Pending.resume, r.isTruthy_value]
    split_ifs
    · exact .value item h
    · exact find h f rest
  | folding f rest => exact fold h f v rest
  | sorting f next =>
    simp only [Renaming.pending, Pending.resume, r.toNumber_value]
    cases v.toNumber "sort comparator" with
    | error cause => exact .failure cause h
    | ok x => exact sort h f (next (x < 0))

end Reply.Mirrors

namespace Builtin

section Effects

variable {r : Renaming} {s s' : Store} {b : Builtin} {args : List Value}

/-- What is to be done with two stores comes to replies that mirror each other. -/
def Matching (r : Renaming) (s s' : Store) (act act' : Store → Reply) : Prop :=
  (act s).Mirrors r (act' s')

/-- A builtin that goes through an array with a function starts in the same way. -/
theorem alike_callback (h : s.Mirrors r s') (hargs : ∀ v ∈ args, v.Within s.extent)
    {start : Store → Value → List Value → Reply}
    (hstart : ∀ f items, (start s f items).Mirrors r (start s' (r.value f) (items.map r.value))) :
    Alike (Matching r s s') (callback b s args start) (callback b s' (args.map r.value) start) := by
  refine (alike_arrayAt hargs).bind ?_
  rintro a _ rfl
  refine (alike_callableAt hargs).bind ?_
  rintro f _ rfl
  refine .ok ?_
  rw [h.items, Array.toList_map]
  exact hstart f _

/-- A fold starts with corresponding values. -/
theorem alike_reduce (h : s.Mirrors r s') (hargs : ∀ v ∈ args, v.Within s.extent) :
    Alike (Matching r s s') (effect reduce s args) (effect reduce s' (args.map r.value)) := by
  refine (alike_arrayAt hargs).bind ?_
  rintro a _ rfl
  refine (alike_callableAt hargs).bind ?_
  rintro f _ rfl
  refine (alike_argument hargs).bind ?_
  rintro acc _ ⟨rfl, -⟩
  refine .ok ?_
  rw [h.items, Array.toList_map]
  exact .fold h f acc _

/-- Corresponding elements are sorted in the same way, by a function or by themselves. -/
theorem alike_sort (h : s.Mirrors r s') (hargs : ∀ v ∈ args, v.Within s.extent) :
    Alike (Matching r s s') (effect sort s args) (effect sort s' (args.map r.value)) := by
  refine (alike_arrayAt hargs).bind ?_
  rintro a _ rfl
  dsimp only
  rw [h.items, Array.toList_map, ← Sorting.image_sort r.value, List.length_map]
  split_ifs
  · refine (alike_callableAt hargs).bind ?_
    rintro f _ rfl
    exact .ok (.sort h f _)
  · rw [Query.run_image (comesBefore_value Builtin.sort.label)]
    cases (Sorting.sort (s.items a).toList).run (comesBefore Builtin.sort.label) with
    | error cause => exact .error cause
    | ok items => exact .ok (.array h items)

/-- A text is split into the same texts. -/
theorem alike_split (h : s.Mirrors r s') :
    Alike (Matching r s s') (effect split s args) (effect split s' (args.map r.value)) := by
  refine (Alike.of_eq textAt_map).bind ?_
  rintro t _ rfl
  refine (Alike.of_eq textAt_map).bind ?_
  rintro sep _ rfl
  refine .ok ?_
  have hreply := Reply.Mirrors.array h ((t.split sep).map Value.string)
  rwa [List.map_map] at hreply

/-- Corresponding elements are appended to corresponding arrays. -/
theorem alike_push (h : s.Mirrors r s') (hargs : ∀ v ∈ args, v.Within s.extent) :
    Alike (Matching r s s') (effect push s args) (effect push s' (args.map r.value)) := by
  refine (alike_arrayAt hargs).bind ?_
  rintro a _ rfl
  refine alike_argumentsFrom.bind ?_
  rintro more _ rfl
  refine .ok ?_
  have hpush := h.pushItems a more
  dsimp only [Matching]
  rw [hpush.items, Array.size_map]
  exact .value _ hpush

/-- The last elements of corresponding arrays correspond and are taken off. -/
theorem alike_pop (h : s.Mirrors r s') (hargs : ∀ v ∈ args, v.Within s.extent) :
    Alike (Matching r s s') (effect pop s args) (effect pop s' (args.map r.value)) := by
  refine (alike_arrayAt hargs).bind ?_
  rintro a _ rfl
  have hempty : ((s.items a).map r.value).isEmpty = (s.items a).isEmpty := by
    simp only [Array.isEmpty, Array.size_map]
  rw [h.items, hempty, Array.size_map]
  split_ifs
  · exact .ok (.value (.boolean false) h)
  · refine alike_item.bind ?_
    rintro v _ rfl
    exact .ok (.value v (h.popItem a))

/-- The same part is cut out of an array or of a text. -/
theorem alike_slice (h : s.Mirrors r s') (hargs : ∀ v ∈ args, v.Within s.extent) :
    Alike (Matching r s s') (effect slice s args) (effect slice s' (args.map r.value)) := by
  refine (alike_argument hargs).bind ?_
  rintro x _ ⟨rfl, -⟩
  cases x with
  | array a =>
    refine (Alike.of_eq numberAt_map).bind ?_
    rintro x _ rfl
    dsimp only
    rw [h.items, Array.size_map]
    refine (Alike.of_eq stopAt_map).bind ?_
    rintro stop _ rfl
    refine alike_part.bind ?_
    rintro chosen _ rfl
    exact .ok (.array h chosen)
  | string t =>
    refine (Alike.of_eq numberAt_map).bind ?_
    rintro x _ rfl
    refine (Alike.of_eq stopAt_map).bind ?_
    rintro stop _ rfl
    refine (alike_textPart (r := r)).bind ?_
    rintro v _ rfl
    exact .ok (.value v h)
  | _ => exact .error _

/-- Corresponding elements are reversed. -/
theorem alike_reverse (h : s.Mirrors r s') (hargs : ∀ v ∈ args, v.Within s.extent) :
    Alike (Matching r s s') (effect reverse s args) (effect reverse s' (args.map r.value)) := by
  refine (alike_arrayAt hargs).bind ?_
  rintro a _ rfl
  refine .ok ?_
  rw [h.items, Array.toList_map, ← List.map_reverse]
  exact .array h _

/-- Corresponding values are put into fields of the same name. -/
theorem alike_put (h : s.Mirrors r s') (hargs : ∀ v ∈ args, v.Within s.extent) :
    Alike (Matching r s s') (effect put s args) (effect put s' (args.map r.value)) := by
  refine (alike_instanceAt hargs).bind ?_
  rintro i _ ⟨rfl, -⟩
  refine (Alike.of_eq textAt_map).bind ?_
  rintro field _ rfl
  refine (alike_argument hargs).bind ?_
  rintro v _ ⟨rfl, -⟩
  exact .ok (.value v (h.putField i field v))

/-- Methods of the same name correspond. -/
theorem alike_call (h : s.Mirrors r s') (hargs : ∀ v ∈ args, v.Within s.extent) :
    Alike (Matching r s s') (effect call s args) (effect call s' (args.map r.value)) := by
  refine (alike_instanceAt hargs).bind ?_
  rintro i _ ⟨rfl, hi⟩
  refine (Alike.of_eq textAt_map).bind ?_
  rintro name _ rfl
  refine alike_argumentsFrom.bind ?_
  rintro more _ rfl
  rw [h.method? hi, h.parentOf hi, h.className]
  cases s.method? i name with
  | none => exact .error _
  | some f => exact .ok (.become f (.object i :: more) h)

/-- The same text is printed. -/
theorem alike_print (h : s.Mirrors r s') (hs : s.WellFormed)
    (hargs : ∀ v ∈ args, v.Within s.extent) :
    Alike (Matching r s s') (effect print s args) (effect print s' (args.map r.value)) := by
  refine (alike_argument hargs).bind ?_
  rintro v _ ⟨rfl, hv⟩
  refine .ok ?_
  simp only [Matching, h.display hs hv, h.output.isOpen.refusal?_eq_none,
    h.output.isOpen'.refusal?_eq_none]
  exact .value v { h with output := h.output.write _ }

/-- The same help is shown. -/
theorem alike_help (h : s.Mirrors r s') :
    Alike (Matching r s s') (effect help s args) (effect help s' (args.map r.value)) := by
  have hlines (name : Text) : Alike (Matching r s s')
      (Help.lines name >>= fun lines => pure fun s =>
        .value (.boolean true) { s with output := s.output.writeAll lines })
      (Help.lines name >>= fun lines => pure fun s =>
        .value (.boolean true) { s with output := s.output.writeAll lines }) := by
    refine (Alike.of_eq rfl).bind ?_
    rintro lines _ rfl
    exact .ok (.value (.boolean true) { h with output := h.output.writeAll lines })
  unfold effect
  dsimp only
  rw [List.length_map]
  split_ifs
  · refine (Alike.of_eq textAt_map).bind ?_
    rintro name _ rfl
    exact hlines name
  · exact hlines Text.empty

/-- A builtin that changes the store or calls back does what corresponds, if it does not ask for
chance. -/
theorem alike_effect (h : s.Mirrors r s') (hs : s.WellFormed)
    (hargs : ∀ v ∈ args, v.Within s.extent) (hb : b ≠ .random) :
    Alike (Matching r s s') (effect b s args) (effect b s' (args.map r.value)) := by
  cases b with
  | random => exact absurd rfl hb
  | split => exact alike_split h
  | array => exact .ok (.array h args)
  | push => exact alike_push h hargs
  | pop => exact alike_pop h hargs
  | slice => exact alike_slice h hargs
  | map => exact alike_callback h hargs fun f items => .map h f [] items
  | filter => exact alike_callback h hargs fun f items => .filter h f [] items
  | forEach => exact alike_callback h hargs fun f items => .visit h f items
  | find => exact alike_callback h hargs fun f items => .find h f items
  | reduce => exact alike_reduce h hargs
  | sort => exact alike_sort h hargs
  | reverse => exact alike_reverse h hargs
  | put => exact alike_put h hargs
  | call => exact alike_call h hargs
  | print => exact alike_print h hs hargs
  | help => exact alike_help h
  | _ => exact .error _

/-- A builtin that is called with corresponding arguments does what corresponds, if it does not ask
for chance. -/
theorem mirrors_run (h : s.Mirrors r s') (hs : s.WellFormed)
    (hargs : ∀ v ∈ args, v.Within s.extent) (hb : b ≠ .random) :
    (b.run s args).Mirrors r (b.run s' (args.map r.value)) := by
  have hpure := alike_pureResult (b := b) h hs hargs
  have heffect := alike_effect h hs hargs hb
  unfold run
  rw [List.length_map]
  cases checkArity b args.length with
  | error cause => exact .failure cause h
  | ok =>
    dsimp only
    generalize pureResult? b s args = result at hpure
    generalize pureResult? b s' (args.map r.value) = result' at hpure
    cases hpure with
    | some hresult =>
      cases hresult with
      | @ok v _ hv =>
        subst hv
        exact .value v h
      | error cause => exact .failure cause h
    | none =>
      generalize effect b s args = act at heffect
      generalize effect b s' (args.map r.value) = act' at heffect
      cases heffect with
      | ok hact => exact hact
      | error cause => exact .failure cause h

end Effects

end Builtin

end TinyScript
