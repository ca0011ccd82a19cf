import TinyScript.CommandLine.Editor
import TinyScript.CommandLine.History
import TinyScript.CommandLine.Program
import TinyScript.Config.Settings
import TinyScript.Documentation
import TinyScript.Session

/-!
# Running a command line

A command line asks for documentation, or for programs that a session or the watching of their files
may follow. Everything outside is given as values: the files, what is typed, and, as the outcome,
what was written and the files afterwards.

This is the program from its arguments to its status: options and settings with their faults, the
documentation, the trace, the programs in order (`Job.start`), and then the session (`Live`) or the
watched files (`Job.reload`). The labels and numbers that programs draw are given too, and so is
whether the line editor can start and whether what is typed can be read to its end. What is typed
comes from no terminal, so no prompt is written, nothing is coloured, and a line is not shown while
it is typed. The time that programs take and when watched files are looked at are left out.
-/

namespace TinyScript.CommandLine

/-- Whether a session follows the programs: if it is asked for, or if there are no programs. -/
def Options.hasSession (o : Options) : Bool := o.repl || (o.files.isEmpty && o.commands.isEmpty)

/-- What running a command line comes to. -/
structure Result where
  status : Nat
  output : Text
  errors : Text
  files : FileTree

/-- The lines of messages that are urgent enough, which are given newest first. -/
def logText (level : Level) (messages : List Message) : Text :=
  Text.concat ((messages.reverse.filter fun m => level.urgency ≤ m.level.urgency).map Message.line)

/-- The settings file that the options name, or the default settings, and the files then. -/
def baseSettings (o : Options) (files : FileTree) : Except SettingsFault (Settings × FileTree) :=
  if o.config.isEmpty then .ok (Settings.default, files)
  else
    match files.read o.config with
    | .error .missing => .error .missing
    | .error _ => .error .unreadable
    | .ok (content, files) => (Settings.load content).map fun c => (c.settings, files)

/-- Settings with what the options ask for. -/
def overridden (o : Options) (s : Settings) : Settings :=
  { s with
    maxSteps := if 0 ≤ o.maxSteps then o.maxSteps else s.maxSteps
    maxDepth := if 0 ≤ o.maxDepth then o.maxDepth else s.maxDepth
    maxSource := if o.maxSource.isEmpty then s.maxSource else o.maxSource
    logLevel := if o.logLevel.isEmpty then s.logLevel else o.logLevel
    trace := if o.trace.isEmpty then s.trace else o.trace }

/-- The settings of a command line and the files then, or what is said about their fault. -/
def chosenSettings (o : Options) (files : FileTree) : Except Text (Settings.Checked × FileTree) :=
  match baseSettings o files with
  | .error fault => .error (o.config ++ ": " ++ fault.message ++ "\n")
  | .ok (s, files) =>
    match (overridden o s).check with
    | .error fault => .error (fault.message ++ "\n")
    | .ok c => .ok (c, files)

/-- Write the documentation and tell so. -/
def runDocs (level : Level) (folder : Text) (files : FileTree) : Result :=
  match Documentation.write folder files with
  | (files, none) =>
    ⟨0, Text.empty, logText level [⟨.info, "documentation written", [("folder", folder)]⟩], files⟩
  | (files, some why) =>
    ⟨1, Text.empty, logText level [⟨.fatal, "cannot write documentation", [("error", why)]⟩], files⟩

/-- Why a path cannot be watched, if it cannot. -/
def watchFault? (files : FileTree) (path : Text) : Option Message :=
  let fault? := match files.find (cleanPath path) with
    | .file _ _ | .stream _ _ | .folder _ => none
    | .free _ _ => some PathFault.missing
    | .slashAfterFile => some .notFolder
    | .nowhere fault => some fault
  fault?.map fun fault => ⟨.error, "cannot watch " ++ path ++ ": " ++ fault.message, []⟩

/-- Why watching program files cannot begin, if it cannot. -/
def watchRefusal? (files : FileTree) (paths : List Text) : Option Message :=
  if paths.isEmpty then some ⟨.error, "-watch needs at least one program file", []⟩
  else paths.findSome? (watchFault? files)

/-- What a command line meets besides files and what is typed: what its programs draw from outside,
why the line editor cannot start, if it cannot, and why there is no more to read behind what is
typed, if that is not simply its end. -/
structure Surroundings where
  supply : Supply
  editorFault : Option Text
  readingFault : Option Text

/-- Surroundings in which nothing is wrong. -/
def Surroundings.standard : Surroundings := ⟨.standard, none, none⟩

/-- What stays the same while a command line runs. -/
structure Job where
  options : Options
  checked : Settings.Checked
  host : Host
  surroundings : Surroundings

/-- Finish a run: close the trace file and gather what was written. If the trace goes where messages
go, it begins before them and ends behind them. -/
def Job.conclude (j : Job) (status : Nat) (s : State) : Result :=
  let s := j.host.traced s
  let s := j.host.continueTrace s s.trace.close
  let log := logText j.checked.level s.messages
  let errors :=
    if j.host.trace = some FileTree.errorsRoute then
      Trace.create.text ++ log ++ s.trace.text.drop Trace.create.text.size
    else log
  ⟨status, s.store.output.text, errors, s.files⟩

/-- What is written before a session. -/
def greeting : Text := "egg REPL, type .help for help and .exit to leave\n"

/-- A state with the greeting written. -/
def State.greeted (s : State) : State :=
  { s with store := { s.store with output := s.store.output.write greeting } }

/-- A state with one more message about a failure. -/
def State.failing (s : State) (why : Text) : State :=
  { s with messages := ⟨.error, why, []⟩ :: s.messages }

/-- A session of a command line: the status it will end with, the messages so far, the files, the
history, if one is kept, and the line being typed. -/
structure Live where
  job : Job
  status : Nat
  console : Console
  messages : List Message
  files : FileTree
  trace : Trace
  history : Option History
  editor : Editor

namespace Live

/-- Begin a session in a new scope inside the top scope, or tell why the line editor cannot start.
The session writes where programs print. -/
def start (j : Job) (status : Nat) (s : State) : Except Text Live :=
  match j.surroundings.editorFault with
  | some why => .error ("cannot start line editor: " ++ why)
  | none =>
    let (scope, store) := s.store.newScope (some j.host.top) .empty
    let (files, history) := History.start s.files j.checked.settings.historyFile
    let past := match history with
      | none => Recall.empty
      | some h => Recall.ofLines (h.newest.reverse.map Text.chars)
    .ok ⟨j, status, ⟨⟨scope, Text.empty, store⟩, none⟩, s.messages, files, s.trace, history,
      .start past⟩

/-- Keep a line in the history. -/
def keep (l : Live) (line : Text) : Live :=
  match l.history with
  | none => l
  | some h =>
    let (files, h) := h.add l.files line
    { l with files := files, history := some h }

/-- Take a line; the answer is false when the session is to end. -/
def feed (fuel : Nat) (l : Live) (line : Text) : Option (Bool × Live) :=
  let l := l.keep line
  (l.console.feed .plain l.job.host.limits fuel line).map fun (stay, c) =>
    let state := l.job.host.traced ⟨c.session.store, l.messages, l.files, l.trace⟩
    let session := { c.session with store := state.store }
    (stay,
      { l with
        console := { c with session := session }, files := state.files, trace := state.trace })

/-- Take a key; the answer is false when the session is to end. Breaking off an empty line ends it,
and otherwise drops the lines that wait. -/
def press (fuel : Nat) (l : Live) (k : Key) : Option (Bool × Live) :=
  let endings (line : List Char) (place : Nat) : List (List Char) :=
    (l.console.session.completeAt line place).1.map Text.chars
  let (editor, response) := l.editor.press endings k
  let l := { l with editor := editor }
  match response with
  | .quiet => some (true, l)
  | .write t => some (true, { l with console := l.console.write t })
  | .entered line => l.feed fuel (Text.ofChars line)
  | .interrupted line =>
    if line.isEmpty && !l.console.session.isContinued then some (false, l)
    else some (true, { l with console := { l.console with session := l.console.session.reset } })
  | .closed => some (false, l)

/-- Take keys up to the one that ends the session. -/
def pressAll (fuel : Nat) : Live → List Key → Option (Bool × Live)
  | l, [] => some (true, l)
  | l, k :: rest =>
    match l.press fuel k with
    | none => none
    | some (false, l) => some (false, l)
    | some (true, l) => pressAll fuel l rest

/-- What was typed and not read yet. -/
def input (l : Live) : Text := (l.files.stream? FileTree.typedRoute).getD Text.empty

/-- Where the programs of a session are. -/
def state (l : Live) : State := ⟨l.console.session.store, l.messages, l.files, l.trace⟩

/-- End a session. -/
def finish (l : Live) : Result := l.job.conclude l.status l.state

/-- End a session because what is typed cannot be read. -/
def abandon (l : Live) (why : Text) : Result :=
  l.job.conclude 1 (l.state.failing ("reading input: " ++ why))

/-- Take all that is typed, and end the session. -/
def complete (fuel : Nat) (l : Live) : Option Result :=
  match l.job.surroundings.readingFault with
  | none => (l.pressAll fuel (typedKeys l.input ++ [.stop])).map fun (_, l) => l.finish
  | some why =>
    (l.pressAll fuel (typedKeys l.input)).map fun (stay, l) =>
      if stay then l.abandon why else l.finish

end Live

/-- What follows the programs of a command line: nothing, a session, or watching their files. -/
inductive Stage where
  | finished (r : Result)
  | session (l : Live)
  | watching (j : Job) (s : State)

/-- Greet, and begin a session. Without a line editor the run is finished, with status one. -/
def Job.converse (j : Job) (status : Nat) (s : State) : Stage :=
  match Live.start j status s.greeted with
  | .ok l => .session l
  | .error why => .finished (j.conclude 1 (s.greeted.failing why))

/-- Run the programs of a command line and go on to what follows them. -/
def Job.start (fuel : Nat) (j : Job) (s : State) : Option Stage :=
  (runPrograms j.host fuel j.options.programs s).map fun (succeeded, s) =>
    let status := if succeeded then 0 else 1
    if j.options.watch then
      match watchRefusal? s.files j.options.files with
      | some m => .finished (j.conclude 1 { s with messages := m :: s.messages })
      | none => .watching j s
    else if j.options.hasSession then j.converse status s
    else .finished (j.conclude status s)

/-- Run the program files again after one of them has changed; failures are only told. -/
def Job.reload (fuel : Nat) (j : Job) (changed : Text) (s : State) : Option State :=
  j.options.files.foldlM
    (fun s path => (runProgram j.host fuel (.file path) s).map Prod.snd)
    { s with messages := ⟨.info, "reloading", [("file", changed)]⟩ :: s.messages }

/-- Make the trace file if one is asked for, so that a bad path is noticed before anything runs. -/
def openTrace (path : Text) (files : FileTree) : Except Message (Option Route × FileTree) :=
  if path.isEmpty then .ok (none, files)
  else
    match files.touch path with
    | .ok (route, files) => .ok (some route, files.put route Trace.create.text)
    | .error fault =>
      .error ⟨.fatal,
        "cannot create trace file " ++ path ++ ": open " ++ path ++ ": " ++ fault.message, []⟩

/-- Do what the options ask for, up to what follows the programs. -/
def perform (w : Surroundings) (fuel : Nat) (o : Options) (files : FileTree) : Option Stage :=
  match chosenSettings o files with
  | .error why => some (.finished ⟨1, Text.empty, why, files⟩)
  | .ok (c, files) =>
    if !o.docs.isEmpty then some (.finished (runDocs c.level o.docs files))
    else
      match openTrace c.settings.trace files with
      | .error m => some (.finished ⟨1, Text.empty, logText c.level [m], files⟩)
      | .ok (trace, files) =>
        let printed := if trace = some FileTree.outputRoute then [Trace.create.text] else []
        let output := (Output.fresh none).writeAll printed
        let empty := { Store.empty output trace.isSome with supply := w.supply }
        let (top, store) := empty.newTopScope
        let limits := Limits.ofInts c.settings.maxSteps c.settings.maxDepth
        Job.start fuel ⟨o, c, ⟨limits, c.sourceLimit, top, trace⟩, w⟩ ⟨store, [], files, .create⟩

/-- Run a command line up to what follows its programs. -/
def start (w : Surroundings) (fuel : Nat) (arguments : List Text) (files : FileTree) :
    Option Stage :=
  match Options.ofArguments arguments with
  | .error .usage => some (.finished ⟨0, Text.empty, usageText, files⟩)
  | .error fault => some (.finished ⟨2, Text.empty, fault.message ++ "\n" ++ usageText, files⟩)
  | .ok o => perform w fuel o files

/-- Run a command line on files and typed input. Watching files comes to no outcome. -/
def runIn (w : Surroundings) (fuel : Nat) (arguments : List Text) (files : FileTree)
    (input : Text) : Option Result :=
  match start w fuel arguments (files.supply FileTree.typedRoute input) with
  | none => none
  | some (.finished r) => some r
  | some (.session l) => l.complete fuel
  | some (.watching _ _) => none

/-- Run a command line where nothing outside is wrong. -/
def run (fuel : Nat) (arguments : List Text) (files : FileTree) (input : Text) : Option Result :=
  runIn .standard fuel arguments files input

/-- The paths that a command line may read or write, as far as the files tell. -/
def paths (arguments : List Text) (files : FileTree) : List Text :=
  match Options.ofArguments arguments with
  | .error _ => []
  | .ok o =>
    let chosen := match chosenSettings o files with
      | .ok (c, _) =>
        let history := c.settings.historyFile
        [history, History.draftPath history, c.settings.trace]
      | .error _ => []
    let pages := Documentation.pages.map fun p => joinPath o.docs (Text.ofString p.name)
    let docs := if o.docs.isEmpty then [] else o.docs :: pages
    (o.config :: (o.files ++ docs ++ chosen)).filter fun p => !p.isEmpty

end TinyScript.CommandLine
