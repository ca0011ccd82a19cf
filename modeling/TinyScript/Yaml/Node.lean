import TinyScript.Yaml.Event

/-!
# Nodes

A document is a scalar, a sequence or a mapping of nodes. Only the first document of a stream is
read. An alias stands for the node that was given its name last; that node may be one around the
alias, so a document keeps its named nodes in a table, and an alias tells its place there.
-/

namespace TinyScript.Yaml

/-- A node of a document. A scalar has a tag, empty if none is written, and may be written plainly,
so that its text decides what it stands for. -/
inductive Node where
  | scalar (text : Text) (plain : Bool) (tag : Text)
  | sequence (items : List Node)
  | mapping (entries : List (Node × Node))
  | alias (name : List Char) (place : Nat)
deriving Inhabited

/-- A document: its outermost node, and the nodes that have names. -/
structure Document where
  root : Node
  named : Array Node
deriving Inhabited

namespace Node

/-- A scalar that is not written at all. -/
def nothing : Node := .scalar Text.empty true Text.empty

/-- Keys and values that follow each other as entries. -/
def entries : List Node → List (Node × Node)
  | k :: v :: rest => (k, v) :: entries rest
  | _ => []

/-- The beginning of the tags that are written short. -/
def commonTag : Text := "tag:yaml.org,2002:"

/-- A tag as it is compared: the common ones are short, and the tag without a name is as good as
none. -/
def shortTag (t : Text) : Text :=
  if t = "!" then Text.empty
  else if t.startsWith commonTag then "!!" ++ t.drop commonTag.size
  else t

end Node

/-- A collection that is not complete: whether it is a mapping, its place in the table of named
nodes, and the nodes in it, newest first. -/
structure Opened where
  isMapping : Bool
  place : Option Nat
  done : List Node

/-- The node that an open collection becomes. -/
def Opened.node (o : Opened) : Node :=
  if o.isMapping then .mapping (Node.entries o.done.reverse) else .sequence o.done.reverse

/-- A document in the making: the open collections, innermost first, the places of names, newest
first, and what is complete. -/
structure Building where
  opened : List Opened
  places : List (List Char × Nat)
  named : Array Node
  root : Node

namespace Building

/-- Nothing yet. -/
def empty : Building := ⟨[], [], #[], Node.nothing⟩

/-- Add a complete node to the innermost collection. -/
def add (b : Building) (n : Node) : Building :=
  match b.opened with
  | o :: rest => { b with opened := { o with done := n :: o.done } :: rest }
  | [] => { b with root := n }

/-- Give a node a place in the table if it has a name. -/
def name (b : Building) (anchor : Option (List Char)) (n : Node) : Building × Option Nat :=
  match anchor with
  | some x =>
    ({ b with places := (x, b.named.size) :: b.places, named := b.named.push n },
      some b.named.size)
  | none => (b, none)

/-- Begin a collection. -/
def start (b : Building) (isMapping : Bool) (anchor : Option (List Char)) : Building :=
  let (b, place) := b.name anchor Node.nothing
  { b with opened := ⟨isMapping, place, []⟩ :: b.opened }

/-- Follow an event; an alias needs a name that is known, and an end something to end. -/
def follow (b : Building) : Event → Option Building
  | .alias x => (b.places.lookup x).map fun i => b.add (.alias x i)
  | .scalar anchor tag cs plain =>
    let n := .scalar (Text.ofChars cs) plain (Node.shortTag tag)
    some ((b.name anchor n).1.add n)
  | .sequence anchor => some (b.start false anchor)
  | .mapping anchor => some (b.start true anchor)
  | .finish =>
    match b.opened with
    | o :: rest =>
      let b := { b with opened := rest }
      some <| match o.place with
        | some i => { b with named := b.named.setIfInBounds i o.node }.add o.node
        | none => b.add o.node
    | [] => none

/-- Follow a document to its end. -/
def walk (hs : Handles) : Nat → List Expectation → Building → Scan Building
  | 0, _, _ => failure
  | _ + 1, [], b => return b
  | fuel + 1, e :: rest, b => do
    match ← Scan.meet hs e with
    | (none, more) => walk hs fuel (more ++ rest) b
    | (some event, more) => walk hs fuel (more ++ rest) (← StateT.lift (b.follow event))

end Building

namespace Document

/-- More steps for each character than reading a document takes. -/
def stepsPerCharacter : Nat := 16

/-- Read the first document, if there is one. -/
def read : Scan (Option Document) := do
  match ← Scan.openDocument with
  | none => return none
  | some (hs, es) =>
    let b ← Building.walk hs (stepsPerCharacter * (← get).reader.limit) es Building.empty
    Scan.closeDocument
    return some ⟨b.root, b.named⟩

/-- Read the first document of a text. The outer option tells whether it can be read, the inner one
whether there is one. -/
def ofText? (t : Text) : Option (Option Document) := (read (Scanner.start t.bytes)).map Prod.fst

end Document

end TinyScript.Yaml
