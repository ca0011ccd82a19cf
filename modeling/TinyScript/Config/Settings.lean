import TinyScript.Config.Level
import TinyScript.Config.Size
import TinyScript.Yaml.Alias
import TinyScript.Yaml.Meaning

/-!
# Settings

What a user can choose, where it comes from, and which choices are refused. A settings file is a
mapping; what it leaves out stays as it is by default.
-/

namespace TinyScript

/-- The choices of a user. Zero steps, depth or source bytes mean that there is no limit. -/
structure Settings where
  historyFile : Text
  maxSteps : Int
  maxDepth : Int
  maxSource : Text
  logLevel : Text
  trace : Text
  noColor : Bool
deriving DecidableEq, Inhabited

/-- Why settings are refused. -/
inductive SettingsFault where
  | missing
  | unreadable
  | malformed
  | negativeSteps
  | negativeDepth
  | badSize
  | badLevel
deriving DecidableEq, Inhabited

/-- The words for a fault. -/
def SettingsFault.message : SettingsFault → Text
  | missing => "config file is missing"
  | unreadable => "config file is unreadable"
  | malformed => "config file is unmarshallable"
  | negativeSteps => "maxSteps must not be negative"
  | negativeDepth => "maxDepth must not be negative"
  | badSize => "maxSource is not a valid size"
  | badLevel => "logLevel must be one of debug, info, warn, error, fatal"

namespace Settings

/-- The settings of a user who chooses nothing. -/
def default : Settings where
  historyFile := ".egg-history.tmp"
  maxSteps := 0
  maxDepth := 100000
  maxSource := "16MB"
  logLevel := "info"
  trace := Text.empty
  noColor := false

/-- The largest number of bytes of a program, zero for no limit. -/
def sourceLimit? (s : Settings) : Option Nat :=
  if s.maxSource.isEmpty then some 0 else Size.ofText? s.maxSource

/-- Settings that are not refused, with what their texts stand for. -/
structure Checked where
  settings : Settings
  sourceLimit : Nat
  level : Level
deriving DecidableEq, Inhabited

/-- Check settings; the first fault counts. -/
def check (s : Settings) : Except SettingsFault Checked :=
  if s.maxSteps < 0 then .error .negativeSteps
  else if s.maxDepth < 0 then .error .negativeDepth
  else
    match s.sourceLimit?, Level.ofText? s.logLevel with
    | none, _ => .error .badSize
    | some _, none => .error .badLevel
    | some limit, some level => .ok ⟨s, limit, level⟩

open Yaml in
/-- The text that a node gives a setting; a node that stands for nothing leaves it as it is. -/
def textOf (old : Text) : Node → Option Text
  | .scalar t plain tag =>
    (Meaning.ofScalar? t plain tag).map fun
      | .nothing => old
      | .text written => written
      | _ => t
  | _ => none

/-- The least integer of sixty-four bits. -/
def leastInteger : Int := -0x8000000000000000

/-- The integer part of a number as an integer of sixty-four bits. What lies below those becomes the
least of them; so does the first number above them, and larger ones have none. -/
def integerOf? (x : Float) : Option Int :=
  if x < 9223372036854775808.0 then
    some (if x < -9223372036854775808.0 then leastInteger else Number.truncate leastInteger 0 x)
  else if x == 9223372036854775808.0 then some leastInteger
  else none

open Yaml in
/-- The integer that a node gives a setting. -/
def intOf (old : Int) : Node → Option Int
  | .scalar t plain tag =>
    (Meaning.ofScalar? t plain tag).bind fun
      | .nothing => some old
      | .integer n => if n < 0x8000000000000000 then some n else none
      | .number x => integerOf? x
      | _ => none
  | _ => none

/-- Words that stand for true where a truth value is wanted. -/
def yesWords : List Text := ["y", "Y", "yes", "Yes", "YES", "on", "On", "ON"]

/-- Words that stand for false where a truth value is wanted. -/
def noWords : List Text := ["n", "N", "no", "No", "NO", "off", "Off", "OFF"]

open Yaml in
/-- The truth value that a node gives a setting. -/
def boolOf (old : Bool) : Node → Option Bool
  | .scalar t plain tag =>
    (Meaning.ofScalar? t plain tag).bind fun
      | .nothing => some old
      | .boolean b => some b
      | .text w =>
        if yesWords.contains w then some true
        else if noWords.contains w then some false
        else none
      | _ => none
  | _ => none

/-- The names of settings. -/
def names : List Text :=
  ["historyFile", "maxSteps", "maxDepth", "maxSource", "logLevel", "trace", "noColor"]

/-- Change the setting with a name; names that are not known change nothing. -/
def set (s : Settings) (name : Text) (n : Yaml.Node) : Option Settings :=
  if name = "historyFile" then (textOf s.historyFile n).map fun v => { s with historyFile := v }
  else if name = "maxSteps" then (intOf s.maxSteps n).map fun v => { s with maxSteps := v }
  else if name = "maxDepth" then (intOf s.maxDepth n).map fun v => { s with maxDepth := v }
  else if name = "maxSource" then (textOf s.maxSource n).map fun v => { s with maxSource := v }
  else if name = "logLevel" then (textOf s.logLevel n).map fun v => { s with logLevel := v }
  else if name = "trace" then (textOf s.trace n).map fun v => { s with trace := v }
  else if name = "noColor" then (boolOf s.noColor n).map fun v => { s with noColor := v }
  else some s

open Yaml in
/-- Whether two keys are written alike. -/
def sameKey : Node → Node → Bool
  | .scalar a _ _, .scalar b _ _ => a == b
  | .sequence _, .sequence _ => true
  | .mapping _, .mapping _ => true
  | .alias x _, .alias y _ => x == y
  | _, _ => false

/-- Whether no two keys of a mapping are written alike. -/
def distinctKeys : List (Yaml.Node × Yaml.Node) → Bool
  | [] => true
  | (k, _) :: rest => rest.all (fun e => !sameKey k e.1) && distinctKeys rest

open Yaml in
/-- Whether a key asks for the entries of another mapping. -/
def isMerge : Node → Bool
  | .scalar t plain tag => t == "<<" && ((plain && tag.isEmpty) || tag == "!!merge")
  | _ => false

open Yaml in
/-- The name that a key stands for, if it stands for anything; keys must be scalars. -/
def keyName? : Node → Option (Option Text)
  | .scalar t plain tag =>
    (Meaning.ofScalar? t plain tag).map fun
      | .nothing => none
      | .text written => some written
      | _ => some t
  | _ => none

/-- Settings in the making, and the names that were met. -/
structure Draft where
  settings : Settings
  met : List Text

/-- Follow an entry of a mapping. A name that was met before counts no more if its mapping is merged
in; otherwise no setting may be named twice. The value of a name that is not known is not looked
at. -/
def setEntry (d : Yaml.Document) (merging : Bool) (below : List Nat) (draft : Draft)
    (entry : Yaml.Node × Yaml.Node) : Yaml.Follow Draft := do
  let (key, _) ← Yaml.Follow.resolve d below entry.1
  match ← StateT.lift (keyName? key) with
  | none => return draft
  | some name =>
    let known := names.contains name
    if draft.met.contains name then
      if known && !merging then failure else return draft
    else
      let draft := { draft with met := name :: draft.met }
      if known then
        let (value, _) ← Yaml.Follow.resolve d below entry.2
        return { draft with settings := ← StateT.lift (draft.settings.set name value) }
      else return draft

open Yaml in
/-- The nodes that a mapping merges in, if one of its keys asks for it. -/
def mergedNodes (entries : List (Node × Node)) : List Node :=
  match entries.find? fun e => isMerge e.1 with
  | none => []
  | some (_, .sequence items) => items
  | some (_, n) => [n]

open Yaml in
/-- Follow the entries of a mapping, and then those of the mappings that it merges in. Before the
first of these the outermost mapping's keys are looked at once more. -/
def setMapping (d : Document) : Nat → Bool → List Nat → List (Node × Node) → Draft → Follow Draft
  | 0, _, _, _, _ => failure
  | fuel + 1, merging, below, entries, draft => do
    if !distinctKeys entries then failure
    let draft ← (entries.filter fun e => !isMerge e.1).foldlM (setEntry d merging below) draft
    if !merging && entries.any fun e => isMerge e.1 then
      entries.forM fun e => do
        let _ ← Follow.resolve d below e.1
    (mergedNodes entries).foldlM
      (fun draft n => do
        match ← Follow.resolve d below n with
        | (.mapping more, below) => setMapping d fuel true below more draft
        | _ => failure)
      draft

/-- More than the number of mappings that can be merged into each other in a document. -/
def mergeDepth (d : Yaml.Document) : Nat := (d.named.size + 1) * (4 * Yaml.Scan.maxDepth)

open Yaml in
/-- Change the settings that a document names. -/
def setAll (s : Settings) (d : Document) : Follow Settings := do
  Follow.look []
  match ← Follow.resolve d [] d.root with
  | (.mapping entries, below) =>
    return (← setMapping d (mergeDepth d) false below entries ⟨s, []⟩).settings
  | (.scalar t plain tag, _) =>
    match Meaning.ofScalar? t plain tag with
    | some .nothing => return s
    | _ => failure
  | _ => failure

/-- The settings of a file with the given content, not checked. -/
def ofYaml? (content : Text) : Option Settings :=
  match Yaml.Document.ofText? content with
  | none => none
  | some none => some default
  | some (some d) => (default.setAll d Yaml.Effort.none).map Prod.fst

/-- The settings of a file with the given content. -/
def load (content : Text) : Except SettingsFault Checked :=
  match ofYaml? content with
  | none => .error .malformed
  | some s => s.check

end Settings

end TinyScript
