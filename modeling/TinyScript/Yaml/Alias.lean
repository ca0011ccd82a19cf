import TinyScript.Yaml.Node

/-!
# Following aliases

An alias leads to a node of the document, which may hold aliases in turn. A few of them can so stand
for very many nodes, therefore the nodes looked at are counted, and it is a failure if nearly all of
them in a large count come from aliases. It is also a failure to come back to an alias's node while
it is followed.
-/

namespace TinyScript.Yaml

/-- How many nodes were looked at, and how many of them below an alias. -/
structure Effort where
  looked : Nat
  aliased : Nat
deriving DecidableEq, Inhabited

namespace Effort

/-- Nothing was looked at. -/
def none : Effort := ⟨0, 0⟩

/-- Counts up to here have the full share of nodes below aliases. -/
def smallCount : Nat := 400000

/-- Counts from here on have the least share of nodes below aliases. -/
def largeCount : Nat := 4000000

/-- The share of nodes that may be below aliases, in parts of `100 * (largeCount - smallCount)`:
from ninety-nine to ten in a hundred. -/
def share (looked : Nat) : Nat :=
  let range := largeCount - smallCount
  if looked ≤ smallCount then 99 * range
  else if largeCount ≤ looked then 10 * range
  else 99 * range - 89 * (looked - smallCount)

/-- Whether too many of the nodes looked at are below aliases. -/
def isExcessive (e : Effort) : Bool :=
  100 < e.aliased && 1000 < e.looked &&
    share e.looked * e.looked < 100 * (largeCount - smallCount) * e.aliased

/-- Look at one more node. -/
def look? (e : Effort) (below : Bool) : Option Effort :=
  let e := ⟨e.looked + 1, if below then e.aliased + 1 else e.aliased⟩
  if e.isExcessive then Option.none else some e

end Effort

/-- Looking at the nodes of a document, which may fail. -/
abbrev Follow := StateT Effort Option

namespace Follow

/-- Look at a node below the aliases to some places. -/
def look (below : List Nat) : Follow Unit := fun e =>
  (e.look? (!below.isEmpty)).map fun e => ((), e)

/-- The node that a node stands for, and below the aliases to which places it is found. -/
def resolve (d : Document) (below : List Nat) (n : Node) : Follow (Node × List Nat) := do
  look below
  match n with
  | .alias _ i =>
    if below.contains i then failure
    else
      let m ← StateT.lift d.named[i]?
      look (i :: below)
      return (m, i :: below)
  | _ => return (n, below)

end Follow

end TinyScript.Yaml
