import TinyScript.Yaml.Token

/-!
# Events

The tokens of a document as a walk through its nodes: a scalar or an alias is one event, a
collection has one where it begins and one where it ends. What may come next is kept as a list of
expectations, innermost first, so a document is read in single steps however deep it is.
-/

namespace TinyScript.Yaml

/-- A step of the walk through a document. A scalar has a tag, empty if none is written, and may be
written plainly, so that its text decides what it stands for. -/
inductive Event where
  | alias (name : List Char)
  | scalar (anchor : Option (List Char)) (tag : Text) (chars : List Char) (plain : Bool)
  | sequence (anchor : Option (List Char))
  | mapping (anchor : Option (List Char))
  | finish
deriving Inhabited

/-- A scalar that is not written at all. -/
def Event.nothing : Event := .scalar none Text.empty [] true

/-- What may come next in a document. A block collection may stand only outside brackets, and a
sequence that is not indented only in a mapping. In a sequence in brackets a key begins a mapping of
one entry, a pair. -/
inductive Expectation where
  | node (block indentless : Bool)
  | blockItem
  | looseItem
  | blockKey
  | blockValue
  | flowItem (first : Bool)
  | pairKey
  | pairValue
  | pairEnd
  | flowKey (first : Bool)
  | flowValue
  | noValue
deriving DecidableEq, Inhabited

/-- What handles stand for. -/
abbrev Handles := List (Text × Text)

/-- The handles that need not be introduced. -/
def Handles.builtIn : Handles := [("!", "!"), ("!!", "tag:yaml.org,2002:")]

/-- The tag that a handle and a suffix stand for; without a handle the suffix is the tag. -/
def Handles.tag? (hs : Handles) (handle suffix : Text) : Option Text :=
  if handle.isEmpty then some suffix else (hs.lookup handle).map fun start => start ++ suffix

namespace Scan

/-- The next token. -/
def peek : Scan Token := do
  fetch (2 * (← get).reader.limit)
  front

/-- Take an anchor if there is one. -/
def anchor? : Scan (Option (List Char)) := do
  match ← peek with
  | .anchor x =>
    take
    return some x
  | _ => return none

/-- Take a tag if there is one. -/
def tag? (hs : Handles) : Scan (Option Text) := do
  match ← peek with
  | .tag handle suffix =>
    take
    return some (← StateT.lift (hs.tag? handle suffix))
  | _ => return none

/-- Take an anchor and a tag, in either order. -/
def properties (hs : Handles) : Scan (Option (List Char) × Option Text) := do
  match ← anchor? with
  | some x => return (some x, ← tag? hs)
  | none =>
    match ← tag? hs with
    | some t => return (← anchor?, some t)
    | none => return (none, none)

/-- An event and what is expected then. -/
abbrev Found := Option Event × List Expectation

/-- A token is there only to be taken. -/
def taking (found : Found) : Scan Found := do
  take
  return found

/-- A node. An anchor or a tag with nothing behind it belongs to a scalar that is not written. -/
def node (hs : Handles) (block indentless : Bool) : Scan Found := do
  match ← peek with
  | .alias x => taking (some (.alias x), [])
  | _ =>
    let (x, t) ← properties hs
    let tag := t.getD Text.empty
    let absent : Scan Found :=
      if x.isSome || t.isSome then return (some (.scalar x tag [] true), []) else failure
    match ← peek with
    | .scalar cs plain => taking (some (.scalar x tag cs plain), [])
    | .flowSequenceStart => taking (some (.sequence x), [.flowItem true])
    | .flowMappingStart => taking (some (.mapping x), [.flowKey true])
    | .blockEntry => if indentless then return (some (.sequence x), [.looseItem]) else absent
    | .blockSequenceStart =>
      if block then taking (some (.sequence x), [.blockItem]) else absent
    | .blockMappingStart =>
      if block then taking (some (.mapping x), [.blockKey]) else absent
    | _ => absent

/-- A node behind the token in front, or nothing if one of some tokens follows that one. -/
def nodeUnless (stops : List Token) (found : Expectation) (rest : List Expectation) :
    Scan Found := do
  take
  if stops.contains (← peek) then return (some .nothing, rest) else return (none, found :: rest)

/-- An item of a sequence that has an indentation of its own, or its end. -/
def blockItem : Scan Found := do
  match ← peek with
  | .blockEntry => nodeUnless [.blockEntry, .blockEnd] (.node true false) [.blockItem]
  | .blockEnd => taking (some .finish, [])
  | _ => failure

/-- An item of a sequence without an indentation of its own, or its end. -/
def looseItem : Scan Found := do
  match ← peek with
  | .blockEntry =>
    nodeUnless [.blockEntry, .key, .value, .blockEnd] (.node true false) [.looseItem]
  | _ => return (some .finish, [])

/-- A key of a mapping that is told by its indentation, or its end. -/
def blockKey : Scan Found := do
  match ← peek with
  | .key => nodeUnless [.key, .value, .blockEnd] (.node true true) [.blockValue]
  | .blockEnd => taking (some .finish, [])
  | _ => failure

/-- A value of a mapping that is told by its indentation. -/
def blockValue : Scan Found := do
  match ← peek with
  | .value => nodeUnless [.key, .value, .blockEnd] (.node true true) [.blockKey]
  | _ => return (some .nothing, [.blockKey])

/-- Take the comma between two entries in brackets; the next token is told. -/
def entryToken (first : Bool) (close : Token) : Scan Token := do
  let t ← peek
  if first || t = close then return t
  else if t = .flowEntry then
    take
    peek
  else failure

/-- An item of a sequence in brackets, or its end. -/
def flowItem (first : Bool) : Scan Found := do
  match ← entryToken first .flowSequenceEnd with
  | .flowSequenceEnd => taking (some .finish, [])
  | .key => taking (some (.mapping none), [.pairKey, .pairValue, .pairEnd, .flowItem false])
  | _ => return (none, [.node false false, .flowItem false])

/-- The key of a pair. The token behind a key that is not written is lost. -/
def pairKey : Scan Found := do
  let t ← peek
  if t = .value ∨ t = .flowEntry ∨ t = .flowSequenceEnd then taking (some .nothing, [])
  else return (none, [.node false false])

/-- The value of a pair. -/
def pairValue : Scan Found := do
  match ← peek with
  | .value => nodeUnless [.flowEntry, .flowSequenceEnd] (.node false false) []
  | _ => return (some .nothing, [])

/-- A key of a mapping in brackets, or its end. An entry may have no colon. -/
def flowKey (first : Bool) : Scan Found := do
  match ← entryToken first .flowMappingEnd with
  | .flowMappingEnd => taking (some .finish, [])
  | .key => nodeUnless [.value, .flowEntry, .flowMappingEnd] (.node false false) [.flowValue]
  | _ => return (none, [.node false false, .noValue])

/-- A value of a mapping in brackets. -/
def flowValue : Scan Found := do
  match ← peek with
  | .value => nodeUnless [.flowEntry, .flowMappingEnd] (.node false false) [.flowKey false]
  | _ => return (some .nothing, [.flowKey false])

/-- One step: what meets an expectation, and what is expected in its place. -/
def meet (hs : Handles) : Expectation → Scan Found
  | .node block indentless => node hs block indentless
  | .blockItem => blockItem
  | .looseItem => looseItem
  | .blockKey => blockKey
  | .blockValue => blockValue
  | .flowItem first => flowItem first
  | .pairKey => pairKey
  | .pairValue => pairValue
  | .pairEnd => return (some .finish, [])
  | .flowKey first => flowKey first
  | .flowValue => flowValue
  | .noValue => return (some .nothing, [.flowKey false])

/-- Whether a token is a directive. -/
def isDirective : Token → Bool
  | .version _ _ | .tagHandle _ _ => true
  | _ => false

/-- Take directives. The version must be the supported one and may be stated once, as may each
handle. -/
def directives : Nat → Bool → Handles → Scan Handles
  | 0, _, _ => failure
  | fuel + 1, versioned, hs => do
    match ← peek with
    | .version major minor =>
      if versioned || major != 1 || minor != 1 then failure
      take
      directives fuel true hs
    | .tagHandle handle start =>
      if (hs.lookup handle).isSome then failure
      take
      directives fuel versioned (hs ++ [(handle, start)])
    | _ => return hs

/-- Begin the first document, if there is one: its handles, and what is expected in it. A document
that begins with a mark may be empty. -/
def openDocument : Scan (Option (Handles × List Expectation)) := do
  let t ← peek
  if t = .streamEnd then return none
  else if t ≠ .documentStart ∧ ¬ isDirective t then
    return some (Handles.builtIn, [.node true false])
  else
    let hs ← directives (← get).reader.limit false []
    if (← peek) ≠ .documentStart then failure
    take
    let t ← peek
    if isDirective t ∨ t = .documentStart ∨ t = .documentEnd ∨ t = .streamEnd then
      return some (hs, [])
    else return some (hs ++ Handles.builtIn, [.node true false])

/-- The end of the first document, of which one token is looked at. -/
def closeDocument : Scan Unit := do
  let _ ← peek

end Scan

end TinyScript.Yaml
