import Mathlib.Data.List.Induction
import TinyScript.Proofs.Layers

/-!
# The laws of scopes

The scopes of a store form a forest. A name that is seen from a scope belongs to the nearest scope
on the way outwards that binds it. Changing a name changes it exactly where it belongs to the same
scope, and binding a name changes it exactly where the way outwards comes to the scope before it
comes to another one that binds the name.
-/

namespace TinyScript

namespace Store

/-- The way outwards from a scope to a scope, with the scopes that come before it. -/
inductive Outwards (s : Store) : ScopeRef → List ScopeRef → ScopeRef → Prop where
  | here (r : ScopeRef) : Outwards s r [] r
  | out {r o e : ScopeRef} {before : List ScopeRef} (houter : s.outer? r = some o)
      (h : Outwards s o before e) : Outwards s r (r :: before) e

variable {s s' : Store} {r e : ScopeRef} {name : Text}

/-- The way outwards leads to older scopes. -/
theorem Outwards.le (hs : s.OuterOlder) {before : List ScopeRef} (h : s.Outwards r before e) :
    (e : Nat) ≤ r := by
  induction h with
  | here => exact Nat.le_refl _
  | out houter _ ih => exact Nat.le_trans ih (Nat.le_of_lt (hs _ _ houter))

/-- Looking for a name from a scope outwards: the scope binds the name, or it does not and is a
top one, or it does not and the search goes on in the scope around it. -/
@[elab_as_elim]
theorem OuterOlder.search (hs : s.OuterOlder) (name : Text) {motive : ScopeRef → Prop}
    (bound : ∀ r v, s.bound? r name = some v → motive r)
    (top : ∀ r, s.bound? r name = none → s.outer? r = none → motive r)
    (out : ∀ r o, s.bound? r name = none → s.outer? r = some o → motive o → motive r)
    (r : ScopeRef) : motive r := by
  induction r using Nat.strongRecOn with
  | ind r ih =>
    cases hbound : s.bound? r name with
    | some v => exact bound r v hbound
    | none =>
      cases houter : s.outer? r with
      | none => exact top r hbound houter
      | some o => exact out r o hbound houter (ih o (hs r o houter))

/-- A name is sought in a scope first and then in the scope around it. -/
theorem resolveFrom_succ (s : Store) (name : Text) (n : Nat) (r : ScopeRef) :
    resolveFrom s.scopes name (n + 1) r =
      ((s.bound? r name).map (Prod.mk r)).or ((s.outer? r).bind (resolveFrom s.scopes name n)) := by
  rw [resolveFrom, bound?, outer?]
  cases s.scopes[r]? with
  | none => rfl
  | some scope =>
    cases hv : scope.bindings.get? name <;> cases ho : scope.outer <;> simp [hv, ho]

/-- The bound on the number of scopes never cuts a search short. -/
theorem resolveFrom_of_lt (hs : s.OuterOlder) {n : Nat} (hn : r < n) :
    resolveFrom s.scopes name n r = s.resolve r name := by
  induction r using Nat.strongRecOn generalizing n with
  | ind r ih =>
    cases n with
    | zero => cases hn
    | succ n =>
      rw [resolve, resolveFrom_succ, resolveFrom_succ]
      cases houter : s.outer? r with
      | none => rfl
      | some o =>
        have ho : o < r := hs r o houter
        have hon : o < n := Nat.lt_of_lt_of_le ho (Nat.le_of_lt_succ hn)
        rw [Option.bind_some, Option.bind_some, ih o ho hon, ih o ho ho]

/-- A name that a scope binds is found there. -/
theorem resolve_of_bound {v : Value} (hv : s.bound? r name = some v) :
    s.resolve r name = some (r, v) := by
  rw [resolve, resolveFrom_succ, hv]
  rfl

/-- What a scope does not bind is looked for one scope further out. -/
theorem resolve_of_unbound (hs : s.OuterOlder) (hnone : s.bound? r name = none) :
    s.resolve r name = (s.outer? r).bind (fun o => s.resolve o name) := by
  rw [resolve, resolveFrom_succ, hnone, Option.map_none, Option.none_or]
  cases houter : s.outer? r with
  | none => rfl
  | some o => exact resolveFrom_of_lt hs (hs r o houter)

/-- A name that a scope binds belongs to this scope. -/
theorem owner_of_bound {v : Value} (hv : s.bound? r name = some v) : s.owner r name = some r := by
  rw [owner, resolve_of_bound hv, Option.map_some]

/-- A name that a scope does not bind belongs to where the scope around it finds it. -/
theorem owner_of_unbound (hs : s.OuterOlder) (hnone : s.bound? r name = none) :
    s.owner r name = (s.outer? r).bind (fun o => s.owner o name) := by
  rw [owner, resolve_of_unbound hs hnone, Option.map_bind]
  rfl

/-- A name that a scope binds has the value bound there. -/
theorem lookup_of_bound {v : Value} (hv : s.bound? r name = some v) :
    s.lookup r name = some v := by
  rw [lookup, resolve_of_bound hv, Option.map_some]

/-- A name that a scope does not bind has the value that the scope around it sees. -/
theorem lookup_of_unbound (hs : s.OuterOlder) (hnone : s.bound? r name = none) :
    s.lookup r name = (s.outer? r).bind (fun o => s.lookup o name) := by
  rw [lookup, resolve_of_unbound hs hnone, Option.map_bind]
  rfl

/-- The value of a name is its value in the scope that it belongs to. -/
theorem lookup_eq (hs : s.OuterOlder) (r : ScopeRef) (name : Text) :
    s.lookup r name = (s.owner r name).bind (fun o => s.bound? o name) := by
  induction r using hs.search name with
  | bound r v hv => rw [lookup_of_bound hv, owner_of_bound hv, Option.bind_some, hv]
  | top r hnone houter =>
    rw [lookup_of_unbound hs hnone, owner_of_unbound hs hnone, houter]
    rfl
  | out r o hnone houter ih =>
    rw [lookup_of_unbound hs hnone, owner_of_unbound hs hnone, houter, Option.bind_some,
      Option.bind_some, ih]

/-- A name belongs to the nearest scope on the way outwards that binds it. -/
theorem owner_eq_some_iff (hs : s.OuterOlder) :
    s.owner r name = some e ↔ ∃ before, s.Outwards r before e ∧ (s.bound? e name).isSome ∧
      ∀ q ∈ before, s.bound? q name = none := by
  induction r using hs.search name with
  | bound r v hv =>
    rw [owner_of_bound hv]
    constructor
    · intro heq
      obtain rfl := Option.some.inj heq
      exact ⟨[], .here r, by simp [hv], by simp⟩
    · rintro ⟨before, hway, -, hbefore⟩
      cases hway with
      | here => rfl
      | out => cases hv.symm.trans (hbefore r List.mem_cons_self)
  | top r hnone houter =>
    rw [owner_of_unbound hs hnone, houter]
    constructor
    · intro heq
      cases heq
    · rintro ⟨before, hway, hbound, -⟩
      cases hway with
      | here => simp [hnone] at hbound
      | out hout => cases houter.symm.trans hout
  | out r o hnone houter ih =>
    rw [owner_of_unbound hs hnone, houter, Option.bind_some, ih]
    constructor
    · rintro ⟨before, hway, hbound, hbefore⟩
      exact ⟨r :: before, .out houter hway, hbound, List.forall_mem_cons.mpr ⟨hnone, hbefore⟩⟩
    · rintro ⟨before, hway, hbound, hbefore⟩
      cases hway with
      | here => simp [hnone] at hbound
      | out hout hway =>
        obtain rfl := Option.some.inj (houter.symm.trans hout)
        exact ⟨_, hway, hbound, (List.forall_mem_cons.mp hbefore).2⟩

/-- Where a name belongs depends on which scopes bind it, and not on its values. -/
theorem owner_congr (hs : s.OuterOlder) (hs' : s'.OuterOlder)
    (houter : ∀ r, s'.outer? r = s.outer? r)
    (hbound : ∀ r, (s'.bound? r name).isSome = (s.bound? r name).isSome) (r : ScopeRef) :
    s'.owner r name = s.owner r name := by
  induction r using hs.search name with
  | bound r v hv =>
    obtain ⟨v', hv'⟩ := Option.isSome_iff_exists.mp ((hbound r).trans (by simp [hv]))
    rw [owner_of_bound hv, owner_of_bound hv']
  | top r hnone htop =>
    have hnone' : s'.bound? r name = none := by simpa [hnone] using hbound r
    rw [owner_of_unbound hs hnone, owner_of_unbound hs' hnone', houter, htop]
    rfl
  | out r o hnone hout ih =>
    have hnone' : s'.bound? r name = none := by simpa [hnone] using hbound r
    rw [owner_of_unbound hs hnone, owner_of_unbound hs' hnone', houter, hout]
    exact ih

/-- A name has the same values if the same scopes bind it to the same values. -/
theorem lookup_congr (hs : s.OuterOlder) (hs' : s'.OuterOlder)
    (houter : ∀ r, s'.outer? r = s.outer? r)
    (hbound : ∀ r, s'.bound? r name = s.bound? r name) (r : ScopeRef) :
    s'.lookup r name = s.lookup r name := by
  rw [lookup_eq hs, lookup_eq hs', owner_congr hs hs' houter (fun r => by rw [hbound r])]
  simp only [hbound]

/-- Binding a name leaves other names as they are. -/
theorem bound?_define_of_other (v : Value) {t : Text} (ht : t ≠ name) (q : ScopeRef) :
    (s.define e name v).bound? q t = s.bound? q t := by
  by_cases hq : q = e
  · subst hq
    rw [bound?_define_self, if_neg fun hself => ht hself.1]
  · exact bound?_define_of_ne v hq t

/-- A change of a name moves no name to another scope. -/
theorem owner_assign (hs : s.OuterOlder) {v : Value} (h : s.assign? e name v = some s')
    (r : ScopeRef) (t : Text) : s'.owner r t = s.owner r t := by
  obtain ⟨o, ho, rfl⟩ := Option.map_eq_some_iff.mp h
  refine owner_congr hs (hs.define o name v) (fun _ => outer?_define v) ?_ r
  intro q
  by_cases hq : q = o
  · subst hq
    rw [bound?_define_self]
    split_ifs with hself
    · rw [hself.1, isSome_bound?_of_owner ho]
      rfl
    · rfl
  · rw [bound?_define_of_ne v hq]

/-- Only scopes of the store bind names. -/
theorem lt_size_of_bound? (h : (s.bound? r name).isSome) : r < s.scopes.size := by
  by_contra hr
  simp [bound?, Array.getElem?_eq_none (Nat.le_of_not_lt hr)] at h

/-- A change of a name is seen where the name belongs to the same scope. -/
theorem lookup_assign_of_owner_eq (hs : s.OuterOlder) {v : Value}
    (h : s.assign? e name v = some s') (hr : s.owner r name = s.owner e name) :
    s'.lookup r name = some v := by
  have howner := owner_assign hs h r name
  obtain ⟨o, ho, rfl⟩ := Option.map_eq_some_iff.mp h
  have hbound := isSome_bound?_of_owner ho
  rw [lookup_eq (hs.define o name v), howner, hr, ho, Option.bind_some, bound?_define_self,
    if_pos ⟨rfl, lt_size_of_bound? hbound⟩]

/-- A change of a name is seen nowhere else, and no other name changes. -/
theorem lookup_assign_of_not (hs : s.OuterOlder) {v : Value} (h : s.assign? e name v = some s')
    {t : Text} (hnot : ¬ (t = name ∧ s.owner r name = s.owner e name)) :
    s'.lookup r t = s.lookup r t := by
  have howner := owner_assign hs h r t
  obtain ⟨o, ho, rfl⟩ := Option.map_eq_some_iff.mp h
  rw [lookup_eq (hs.define o name v), lookup_eq hs, howner]
  cases hq : s.owner r t with
  | none => rfl
  | some q =>
    rw [Option.bind_some, Option.bind_some]
    by_cases ht : t = name
    · subst ht
      have hne : q ≠ o := fun heq => hnot ⟨rfl, by rw [hq, ho, heq]⟩
      exact bound?_define_of_ne v hne t
    · exact bound?_define_of_other v ht q

/-- A name that is bound in a scope is seen from where the way outwards comes to the scope before
another one that binds the name. -/
theorem lookup_define_of_outwards (hs : s.OuterOlder) (v : Value) (he : e < s.scopes.size)
    {before : List ScopeRef} (hway : s.Outwards r before e)
    (hbefore : ∀ q ∈ before, s.bound? q name = none) :
    (s.define e name v).lookup r name = some v := by
  have hs' := hs.define e name v
  have hself : (s.define e name v).bound? e name = some v := by
    rw [bound?_define_self, if_pos ⟨rfl, he⟩]
  induction hway with
  | here r => exact lookup_of_bound hself
  | @out r o e before houter hway ih =>
    have hle : (e : Nat) ≤ o := hway.le hs
    have hlt : (o : Nat) < r := hs r o houter
    obtain ⟨hnone, hbefore⟩ := List.forall_mem_cons.mp hbefore
    have hnone' : (s.define e name v).bound? r name = none := by
      rw [bound?_define_of_ne v (Nat.ne_of_gt (Nat.lt_of_le_of_lt hle hlt)), hnone]
    rw [lookup_of_unbound hs' hnone', outer?_define, houter, Option.bind_some]
    exact ih he hbefore hs' hself

/-- A name that is bound in a scope is seen from nowhere else, and no other name changes: a scope
that does not see the binding is not the one that has it, and neither are the scopes that come into
question on the way outwards. -/
theorem lookup_define_of_not (hs : s.OuterOlder) (v : Value) {t : Text}
    (hnot : ¬ (t = name ∧ ∃ before, s.Outwards r before e ∧
      ∀ q ∈ before, s.bound? q name = none)) :
    (s.define e name v).lookup r t = s.lookup r t := by
  have hs' := hs.define e name v
  by_cases ht : t = name
  · subst ht
    replace hnot : ¬ ∃ before, s.Outwards r before e ∧ ∀ q ∈ before, s.bound? q t = none :=
      fun hway => hnot ⟨rfl, hway⟩
    have hne {r : ScopeRef} (hnot : ¬ ∃ before, s.Outwards r before e ∧
        ∀ q ∈ before, s.bound? q t = none) : r ≠ e :=
      fun heq => hnot ⟨[], heq ▸ .here r, List.forall_mem_nil _⟩
    induction r using hs.search t with
    | bound r w hw =>
      have hw' : (s.define e t v).bound? r t = some w := by
        rw [bound?_define_of_ne v (hne hnot), hw]
      rw [lookup_of_bound hw', lookup_of_bound hw]
    | top r hnone houter =>
      have hnone' : (s.define e t v).bound? r t = none := by
        rw [bound?_define_of_ne v (hne hnot), hnone]
      rw [lookup_of_unbound hs' hnone', lookup_of_unbound hs hnone, outer?_define, houter]
      rfl
    | out r o hnone houter ih =>
      have hnone' : (s.define e t v).bound? r t = none := by
        rw [bound?_define_of_ne v (hne hnot), hnone]
      rw [lookup_of_unbound hs' hnone', lookup_of_unbound hs hnone, outer?_define, houter]
      apply ih
      rintro ⟨before, hway, hbefore⟩
      exact hnot ⟨r :: before, .out houter hway, List.forall_mem_cons.mpr ⟨hnone, hbefore⟩⟩
  · exact lookup_congr hs hs' (fun _ => outer?_define v) (bound?_define_of_other v ht) r

/-- The chain of a scope begins with it and goes on with that of the scope around it. -/
theorem chainFrom_succ (n : Nat) (hr : r < s.scopes.size) :
    chainFrom s.scopes (n + 1) r =
      r :: ((s.outer? r).map (chainFrom s.scopes n)).getD [] := by
  rw [chainFrom, outer?, Array.getElem?_eq_getElem hr]
  cases ho : s.scopes[r].outer <;> simp [ho]

/-- The bound on the number of scopes never cuts a chain short. -/
theorem chainFrom_of_lt (hs : s.OuterOlder) {n : Nat} (hn : r < n) (hr : r < s.scopes.size) :
    chainFrom s.scopes n r = chain s.scopes r := by
  induction r using Nat.strongRecOn generalizing n with
  | ind r ih =>
    cases n with
    | zero => cases hn
    | succ n =>
      rw [chain, chainFrom_succ n hr, chainFrom_succ r hr]
      cases houter : s.outer? r with
      | none => rfl
      | some o =>
        have ho : o < r := hs r o houter
        have hon : o < n := Nat.lt_of_lt_of_le ho (Nat.le_of_lt_succ hn)
        rw [Option.map_some, Option.map_some, ih o ho hon (Nat.lt_trans ho hr),
          ih o ho ho (Nat.lt_trans ho hr)]

/-- A chain begins with its scope and goes on with the chain of the scope around it. -/
theorem chain_eq (hs : s.OuterOlder) (hr : r < s.scopes.size) :
    chain s.scopes r = r :: ((s.outer? r).map (chain s.scopes)).getD [] := by
  rw [chain, chainFrom_succ r hr]
  cases houter : s.outer? r with
  | none => rfl
  | some o =>
    have ho : o < r := hs r o houter
    rw [Option.map_some, Option.map_some, chainFrom_of_lt hs ho (Nat.lt_trans ho hr)]

/-- The chain of a scope is the scope itself and the chain of the scope around it. -/
theorem mem_chain_iff (hs : s.OuterOlder) {q : ScopeRef} :
    q ∈ chain s.scopes r ↔
      q = r ∧ r < s.scopes.size ∨ ∃ o, s.outer? r = some o ∧ q ∈ chain s.scopes o := by
  by_cases hr : r < s.scopes.size
  · rw [chain_eq hs hr]
    cases s.outer? r <;> simp [hr]
  · simp [chain, chainFrom, outer?, hr]

/-- The names that have a value are those that some scope of the chain binds. -/
theorem isSome_lookup_iff (hs : s.OuterOlder) :
    (s.lookup r name).isSome ↔ ∃ q ∈ chain s.scopes r, (s.bound? q name).isSome := by
  induction r using hs.search name with
  | bound r v hv =>
    have hsome : (s.bound? r name).isSome := by simp [hv]
    have hmem : r ∈ chain s.scopes r := (mem_chain_iff hs).mpr (.inl ⟨rfl, lt_size_of_bound? hsome⟩)
    rw [lookup_of_bound hv]
    exact ⟨fun _ => ⟨r, hmem, hsome⟩, fun _ => rfl⟩
  | top r hnone houter =>
    rw [lookup_of_unbound hs hnone, houter]
    simp [mem_chain_iff hs (r := r), houter, hnone]
  | out r o hnone houter ih =>
    rw [lookup_of_unbound hs hnone, houter, Option.bind_some, ih]
    simp [mem_chain_iff hs (r := r), houter, hnone, or_and_right, exists_or]

/-- The way outwards passes the scopes of the chain in their order. -/
theorem outwards_of_chain_eq (hs : s.OuterOlder) {before rest : List ScopeRef}
    (h : chain s.scopes r = before ++ e :: rest) : s.Outwards r before e := by
  have hr : r < s.scopes.size := by
    by_contra hge
    have hnone : chain s.scopes r = [] := by simp [chain, chainFrom, hge]
    rw [hnone] at h
    exact absurd h (by simp)
  induction before generalizing r with
  | nil =>
    rw [chain_eq hs hr] at h
    obtain ⟨rfl, -⟩ := List.cons.inj h
    exact .here r
  | cons q before ih =>
    rw [chain_eq hs hr] at h
    obtain ⟨rfl, hrest⟩ := List.cons.inj h
    cases houter : s.outer? r with
    | none =>
      rw [houter] at hrest
      exact absurd hrest (by simp)
    | some o =>
      rw [houter] at hrest
      exact .out houter (ih hrest (Nat.lt_trans (hs r o houter) hr))

/-- The names that a scope lists are those that it binds. -/
theorem mem_ownNames_iff {q : ScopeRef} : name ∈ s.ownNames q ↔ (s.bound? q name).isSome := by
  cases hq : s.scopes[q]? with
  | none => simp [ownNames, bound?, hq]
  | some scope => simp [ownNames, bound?, hq, Bindings.get?_isSome_iff]

/-- A scope lists no name twice. -/
theorem nodup_ownNames (s : Store) (q : ScopeRef) : (s.ownNames q).Nodup := by
  unfold ownNames
  split
  · exact Bindings.nodup_names _
  · exact List.nodup_nil

/-- A further scope adds the names that no scope before it binds. -/
theorem gatherNames_concat (s : Store) (seen : List Text) (scopes : List ScopeRef) (q : ScopeRef) :
    s.gatherNames seen (scopes ++ [q]) =
      s.gatherNames seen scopes ++ (s.ownNames q).filter (· ∉ s.gatherNames seen scopes) := by
  rw [gatherNames, List.foldl_append]
  rfl

/-- The names of some scopes are those that one of them binds. -/
theorem mem_gatherNames_iff {scopes : List ScopeRef} :
    name ∈ s.gatherNames [] scopes ↔ ∃ q ∈ scopes, (s.bound? q name).isSome := by
  induction scopes using List.reverseRecOn with
  | nil => simp [gatherNames]
  | append_singleton scopes q ih =>
    by_cases hmem : name ∈ s.gatherNames [] scopes
    · obtain ⟨q', hq', hbound⟩ := ih.mp hmem
      rw [gatherNames_concat, List.mem_append]
      exact ⟨fun _ => ⟨q', List.mem_append_left _ hq', hbound⟩, fun _ => .inl hmem⟩
    · have hnone := mt ih.mpr hmem
      simp only [gatherNames_concat, List.mem_append, hmem, false_or, List.mem_filter,
        decide_not, decide_false, Bool.not_false, and_true, mem_ownNames_iff,
        List.mem_singleton, or_and_right, exists_or, exists_eq_left]
      exact ⟨.inr, fun hbound => hbound.resolve_left hnone⟩

/-- No name of some scopes is listed twice. -/
theorem nodup_gatherNames (s : Store) (scopes : List ScopeRef) :
    (s.gatherNames [] scopes).Nodup := by
  induction scopes using List.reverseRecOn with
  | nil => exact List.nodup_nil
  | append_singleton scopes q ih =>
    rw [gatherNames_concat, List.nodup_append]
    refine ⟨ih, (s.nodup_ownNames q).filter _, ?_⟩
    rintro t ht _ hnew rfl
    exact of_decide_eq_true (List.mem_filter.mp hnew).2 ht

/-- A name that is listed for the first scopes of a chain belongs to one of them. -/
theorem exists_owner_of_mem_gatherNames (hs : s.OuterOlder) {scopes rest : List ScopeRef}
    (hchain : chain s.scopes r = scopes ++ rest) (h : name ∈ s.gatherNames [] scopes) :
    ∃ o ∈ scopes, s.owner r name = some o := by
  have hfind : (scopes.find? fun q => (s.bound? q name).isSome).isSome := by
    simpa [List.find?_isSome] using mem_gatherNames_iff.mp h
  obtain ⟨o, ho⟩ := Option.isSome_iff_exists.mp hfind
  obtain ⟨hbound, before, after, rfl, hbefore⟩ := List.find?_eq_some_iff_append.mp ho
  refine ⟨o, by simp, (owner_eq_some_iff hs).mpr ⟨before, ?_, hbound, fun q hq => ?_⟩⟩
  · rw [List.append_assoc, List.cons_append] at hchain
    exact outwards_of_chain_eq hs hchain
  · simpa using hbefore q hq

/-- A name that a further scope adds belongs to this scope. -/
theorem owner_of_mem_filter (hs : s.OuterOlder) {scopes : List ScopeRef} {q : ScopeRef}
    (hway : s.Outwards r scopes q)
    (h : name ∈ (s.ownNames q).filter (· ∉ s.gatherNames [] scopes)) :
    s.owner r name = some q := by
  obtain ⟨hown, hfresh⟩ := List.mem_filter.mp h
  refine (owner_eq_some_iff hs).mpr ⟨scopes, hway, mem_ownNames_iff.mp hown, fun q' hq' => ?_⟩
  have hunbound : ¬ (s.bound? q' name).isSome = true := fun hbound =>
    of_decide_eq_true hfresh (mem_gatherNames_iff.mpr ⟨q', hq', hbound⟩)
  simpa using hunbound

/-- Of two names that are listed for the first scopes of a chain, the first one belongs to the same
scope as the other one, or to one further inside. -/
theorem pairwise_gatherNames (hs : s.OuterOlder) {scopes rest : List ScopeRef}
    (hchain : chain s.scopes r = scopes ++ rest) :
    (s.gatherNames [] scopes).Pairwise fun t u => ∃ before o o', s.owner r t = some o ∧
      s.owner r u = some o' ∧ s.Outwards r before o' ∧ o ∈ before ++ [o'] := by
  induction scopes using List.reverseRecOn generalizing rest with
  | nil => exact .nil
  | append_singleton scopes q ih =>
    rw [List.append_assoc, List.singleton_append] at hchain
    have hway : s.Outwards r scopes q := outwards_of_chain_eq hs hchain
    rw [gatherNames_concat, List.pairwise_append]
    refine ⟨ih hchain, ?_, ?_⟩
    · refine List.pairwise_of_forall_mem_list fun t ht u hu => ?_
      exact ⟨scopes, q, q, owner_of_mem_filter hs hway ht, owner_of_mem_filter hs hway hu, hway,
        by simp⟩
    · intro t ht u hu
      obtain ⟨o, ho, howner⟩ := exists_owner_of_mem_gatherNames hs hchain ht
      exact ⟨scopes, o, q, howner, owner_of_mem_filter hs hway hu, hway,
        List.mem_append_left _ ho⟩

/-- The names seen from a scope are those that some scope of its chain binds. -/
theorem mem_visibleNames_iff_exists :
    name ∈ s.visibleNames r ↔ ∃ q ∈ chain s.scopes r, (s.bound? q name).isSome := by
  rw [visibleNames, Text.mem_sorted, names, mem_gatherNames_iff]

/-- The names seen from a scope are those that have a value there. -/
theorem mem_visibleNames_iff (hs : s.OuterOlder) :
    name ∈ s.visibleNames r ↔ (s.lookup r name).isSome := by
  rw [mem_visibleNames_iff_exists, isSome_lookup_iff hs]

/-- The stores that come about by making scopes, binding names and changing them. -/
inductive Forest : Store → Prop where
  | nothing {s : Store} (h : s.scopes = #[]) : Forest s
  | newScope {s : Store} (h : Forest s) (outer : Option ScopeRef)
      (houter : ∀ e, outer = some e → e < s.scopes.size) : Forest (s.newScope outer .empty).2
  | define {s : Store} (h : Forest s) (e : ScopeRef) (name : Text) (v : Value) :
      Forest (s.define e name v)
  | assign {s s' : Store} (h : Forest s) {e : ScopeRef} {name : Text} {v : Value}
      (hassign : s.assign? e name v = some s') : Forest s'

/-- In a forest every scope lies inside an older one or inside none. -/
theorem Forest.outerOlder (h : s.Forest) : s.OuterOlder := by
  induction h with
  | nothing h =>
    intro r o ho
    simp [outer?, h] at ho
  | newScope _ outer houter ih => exact ih.newScope houter .empty
  | define _ e name v ih => exact ih.define e name v
  | assign _ hassign ih =>
    obtain ⟨o, -, rfl⟩ := Option.map_eq_some_iff.mp hassign
    exact ih.define o _ _

end Store

/-- In every forest of scopes, a name belongs to the nearest scope on the way outwards that binds
it, and the following laws hold.

- A name can be changed from a scope exactly if it belongs to some scope; otherwise the change is a
  fault and the store stays as it is.
- A change leaves every name where it belongs. The name has the new value wherever it belongs to the
  same scope, and all else is as before.
- A name that is bound in a scope has the value wherever the way outwards comes to the scope before
  it comes to another one that binds the name, and all else is as before.
- The names seen from a scope are listed once each, those of inner scopes first, and are those that
  have a value; so are they in increasing order. -/
theorem laws_of_forest {s : Store} (h : s.Forest) (e : ScopeRef) (name : Text) (v : Value) :
    (∀ r t o, s.owner r t = some o ↔ ∃ before, s.Outwards r before o ∧ (s.bound? o t).isSome ∧
      ∀ q ∈ before, s.bound? q t = none) ∧
    ((s.assign? e name v).isSome ↔ (s.owner e name).isSome) ∧
    (s.owner e name = none → ∀ limits p stack,
      Machine.step limits (.giving v (.assign name p e :: stack) s) =
        .inl (.raising (.placed (.undefinedName name) p) stack s)) ∧
    (∀ s', s.assign? e name v = some s' →
      (∀ limits p stack, Machine.step limits (.giving v (.assign name p e :: stack) s) =
        .inl (.giving v stack s')) ∧
      (∀ r t, s'.owner r t = s.owner r t) ∧
      (∀ r, s.owner r name = s.owner e name → s'.lookup r name = some v) ∧
      ∀ r t, ¬ (t = name ∧ s.owner r name = s.owner e name) → s'.lookup r t = s.lookup r t) ∧
    (e < s.scopes.size →
      (∀ r before, s.Outwards r before e → (∀ q ∈ before, s.bound? q name = none) →
        (s.define e name v).lookup r name = some v) ∧
      ∀ r t, ¬ (t = name ∧ ∃ before, s.Outwards r before e ∧
        ∀ q ∈ before, s.bound? q name = none) → (s.define e name v).lookup r t = s.lookup r t) ∧
    ∀ r, (s.names r).Nodup ∧ (∀ t, t ∈ s.names r ↔ (s.lookup r t).isSome) ∧
      ((s.names r).Pairwise fun t u => ∃ before o o', s.owner r t = some o ∧
        s.owner r u = some o' ∧ s.Outwards r before o' ∧ o ∈ before ++ [o']) ∧
      (s.visibleNames r).Nodup ∧ ∀ t, t ∈ s.visibleNames r ↔ (s.lookup r t).isSome := by
  have hs : s.OuterOlder := h.outerOlder
  refine ⟨fun r t o => Store.owner_eq_some_iff hs, ?_, ?_, ?_, ?_, ?_⟩
  · rw [Store.assign?, Option.isSome_map]
  · intro hnone limits p stack
    simp only [Machine.step, Machine.resume, hnone, Machine.failAt]
  · intro s' hassign
    refine ⟨?_, Store.owner_assign hs hassign, fun r => Store.lookup_assign_of_owner_eq hs hassign,
      fun r t => Store.lookup_assign_of_not hs hassign⟩
    intro limits p stack
    obtain ⟨o, ho, rfl⟩ := Option.map_eq_some_iff.mp hassign
    simp only [Machine.step, Machine.resume, ho]
  · intro he
    exact ⟨fun r before => Store.lookup_define_of_outwards hs v he,
      fun r t => Store.lookup_define_of_not hs v⟩
  · intro r
    refine ⟨s.nodup_gatherNames _, fun t => ?_, ?_, Text.nodup_sorted _,
      fun t => Store.mem_visibleNames_iff hs⟩
    · rw [Store.names, Store.mem_gatherNames_iff, Store.isSome_lookup_iff hs]
    · exact Store.pairwise_gatherNames hs (List.append_nil _).symm

/-- Two scopes inside the same one, of which the first has the name itself: a change from the second
one goes to the outer scope, and the first one does not see it. -/
theorem laws_of_forest_shadowed :
    ∃ s s' : Store, s.Forest ∧ s.owner 1 "x" = some 1 ∧ s.owner 2 "x" = some 0 ∧
      s.assign? 2 "x" (.string "new") = some s' ∧
      s'.lookup 0 "x" = some (.string "new") ∧ s'.lookup 2 "x" = some (.string "new") ∧
      s'.lookup 1 "x" = s.lookup 1 "x" ∧
      (s.define 0 "x" (.string "new")).lookup 2 "x" = some (.string "new") ∧
      (s.define 0 "x" (.string "new")).lookup 1 "x" = s.lookup 1 "x" := by
  obtain ⟨s, hforest, howner₀, howner₁, howner₂, hsize, houter, hunbound, hinner⟩ :
      ∃ s : Store, s.Forest ∧ s.owner 0 "x" = some 0 ∧ s.owner 1 "x" = some 1 ∧
        s.owner 2 "x" = some 0 ∧ 0 < s.scopes.size ∧ s.outer? 2 = some 0 ∧
        s.bound? 2 "x" = none ∧ (s.bound? 1 "x").isSome :=
    ⟨_, (((((Store.Forest.nothing (s := Store.empty (.fresh none) false) rfl).newScope none
        (by simp)).newScope (some 0) (by simp [Store.newScope])).newScope (some 0)
        (by simp [Store.newScope])).define 0 "x" (.string "old")).define 1 "x" (.string "inner"),
      by decide +kernel⟩
  have hassign : s.assign? 2 "x" (.string "new") = some (s.define 0 "x" (.string "new")) := by
    rw [Store.assign?, howner₂]
    rfl
  obtain ⟨-, -, hseen, hunseen⟩ := (laws_of_forest hforest 2 "x" (.string "new")).2.2.2.1 _ hassign
  obtain ⟨hbound, hother⟩ := (laws_of_forest hforest 0 "x" (.string "new")).2.2.2.2.1 hsize
  refine ⟨s, _, hforest, howner₁, howner₂, hassign, hseen 0 (howner₀.trans howner₂.symm),
    hseen 2 rfl, hunseen 1 "x" ?_, hbound 2 [2] (.out houter (.here 0)) (by simp [hunbound]),
    hother 1 "x" ?_⟩
  · rw [howner₁, howner₂]
    decide
  · rintro ⟨-, before, hway, hbefore⟩
    cases hway with
    | out =>
      rw [hbefore 1 List.mem_cons_self] at hinner
      cases hinner

end TinyScript
