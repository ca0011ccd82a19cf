/-!
# Computations that ask for comparisons

A computation that needs comparisons is a tree: it is done with a result, or it asks whether one
element comes before another and goes on with the answer. Who answers, and what that costs or
changes, is not its business.
-/

namespace TinyScript

/-- A computation that asks for comparisons of elements before it gives a result. -/
inductive Query (α β : Type) where
  | done (result : β)
  | ask (x y : α) (next : Bool → Query α β)

namespace Query

variable {α β γ : Type}

/-- Go on with another computation. -/
protected def bind : Query α β → (β → Query α γ) → Query α γ
  | done b, f => f b
  | ask x y next, f => ask x y fun answer => (next answer).bind f

instance : Monad (Query α) where
  pure := done
  bind := Query.bind

/-- Ask whether `x` comes before `y`. -/
def before (x y : α) : Query α Bool := ask x y done

/-- Answer every question by a function that may fail; the first failure is the result. -/
def run {ε : Type} (less : α → α → Except ε Bool) : Query α β → Except ε β
  | done b => .ok b
  | ask x y next =>
    match less x y with
    | .error e => .error e
    | .ok answer => (next answer).run less

end Query

end TinyScript
