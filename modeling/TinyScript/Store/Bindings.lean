import Std.Data.TreeMap
import TinyScript.Text.Order
import TinyScript.Value

/-!
# Bindings

Names with their values, in the order of the names. A name is bound at most once: putting a bound
name again replaces its value.
-/

namespace TinyScript

/-- Names with their values. -/
structure Bindings where
  tree : Std.TreeMap Text Value Text.order

namespace Bindings

/-- No bindings. -/
def empty : Bindings := ⟨∅⟩

instance : Inhabited Bindings := ⟨empty⟩

/-- The value of a name. -/
def get? (b : Bindings) (name : Text) : Option Value := b.tree[name]?

/-- Bind a name, replacing its value if it is bound. -/
def put (b : Bindings) (name : Text) (value : Value) : Bindings := ⟨b.tree.insert name value⟩

/-- Bind all names of a list; of two equal names the later one counts. -/
def ofList (entries : List (Text × Value)) : Bindings :=
  entries.foldl (fun b entry => b.put entry.1 entry.2) empty

/-- The bound names in increasing order. -/
def names (b : Bindings) : List Text := b.tree.keys

/-- The bound names with their values, in increasing order of the names. -/
def toList (b : Bindings) : List (Text × Value) := b.tree.toList

/-- No name is bound at first. -/
@[simp] theorem get?_empty (name : Text) : empty.get? name = none := by simp [get?, empty]

/-- A name that was put has the value put, and no other name changes. -/
theorem get?_put (b : Bindings) (name other : Text) (value : Value) :
    (b.put name value).get? other = if other = name then some value else b.get? other := by
  simp [get?, put, Std.TreeMap.getElem?_insert, @eq_comm _ other name]

/-- Exactly the bound names have a value. -/
theorem get?_isSome_iff (b : Bindings) (name : Text) :
    (b.get? name).isSome ↔ name ∈ b.names := by
  simp [get?, names]

/-- Putting a name adds at most that name. -/
theorem mem_names_put (b : Bindings) (name other : Text) (value : Value) :
    other ∈ (b.put name value).names ↔ other = name ∨ other ∈ b.names := by
  simp [put, names, @eq_comm _ other name]

/-- No name is listed twice. -/
theorem nodup_names (b : Bindings) : b.names.Nodup := Std.TreeMap.nodup_keys

end Bindings

end TinyScript
