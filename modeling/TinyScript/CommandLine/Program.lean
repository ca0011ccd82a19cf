import TinyScript.CommandLine.Log
import TinyScript.CommandLine.Options
import TinyScript.Config.Size
import TinyScript.Files
import TinyScript.Trace

/-!
# Programs of a command line

Program files run first and commands after them, each in a scope of its own inside one top scope, up
to the first that fails. A failure is a message with the file or the number of the command, and
leaves what was printed and bound before it in place. After each program the calls that it has
recorded are written to the trace, if there is one; the times of these calls are left out.
-/

namespace TinyScript.CommandLine

/-- A program that the command line names. -/
inductive Program where
  | file (path : Text)
  | command (number : Nat) (source : Text)
deriving DecidableEq, Inhabited

/-- What a program is called in messages. -/
def Program.name : Program → Text
  | file path => path
  | command number _ => "command " ++ Text.ofNat number

/-- What is said before a program runs. -/
def Program.announcement : Program → Message
  | file path => ⟨.debug, "loading", [("file", path)]⟩
  | command _ source => ⟨.debug, "executing", [("command", source)]⟩

/-- What programs run with: their limits, the size of the largest program file, the top scope, and
the trace file, if there is one. -/
structure Host where
  limits : Limits
  sourceLimit : Nat
  top : ScopeRef
  trace : Option Route

/-- The store, the messages so far, newest first, the files, and what was written to the trace
file. -/
structure State where
  store : Store
  messages : List Message
  files : FileTree
  trace : Trace

/-- Go on with a trace file that more was written to. Files are written over from their beginning;
where programs print, what is new comes behind what they have printed. -/
def Host.continueTrace (h : Host) (s : State) (trace : Trace) : State :=
  match h.trace with
  | none => s
  | some route =>
    if route = FileTree.outputRoute then
      let more := trace.text.drop s.trace.text.size
      { s with store := { s.store with output := s.store.output.write more }, trace := trace }
    else { s with files := s.files.overlay route trace.text, trace := trace }

/-- Bring the trace file up to date with the calls recorded since. -/
def Host.traced (h : Host) (s : State) : State :=
  match s.store.events with
  | none => s
  | some events =>
    h.continueTrace { s with store := { s.store with events := some [] } } (s.trace.addCalls events)

/-- The size of a folder, if someone asks whether it is too large for a program. -/
def folderSize : Nat := 4096

/-- Whether a size is above a limit, where zero is no limit. -/
def exceeds (limit size : Nat) : Bool := limit != 0 && limit < size

/-- That a program file is too large. -/
def tooLarge (path : Text) (size limit : Nat) : Text :=
  path ++ " is " ++ Size.shown size ++ ", the limit is " ++ Size.shown limit

/-- The text of a program file and the files then, or why there is none. -/
def readProgram (limit : Nat) (files : FileTree) (path : Text) : Except Text (Text × FileTree) :=
  let unread (fault : PathFault) : Text :=
    "cannot read " ++ path ++ ": read " ++ path ++ ": " ++ fault.message
  let unopened (fault : PathFault) : Text :=
    "cannot open " ++ path ++ ": stat " ++ path ++ ": " ++ fault.message
  let content := (files.read path).mapError unread
  match files.find path with
  | .file _ text =>
    if exceeds limit text.size then .error (tooLarge path text.size limit) else content
  | .folder _ =>
    if exceeds limit folderSize then .error (tooLarge path folderSize limit) else content
  | .stream _ _ => content
  | .free _ _ | .nowhere .missing => .error ("file not found: " ++ path)
  | .slashAfterFile => .error (unopened .notFolder)
  | .nowhere fault => .error (unopened fault)

/-- The text of a program and the files then, or why there is none. -/
def Program.source (limit : Nat) (files : FileTree) : Program → Except Text (Text × FileTree)
  | file path => readProgram limit files path
  | command _ source => .ok (source, files)

/-- What is said about a program that has run; the time it took is not told. -/
def finished (name result : Text) : Message :=
  ⟨.debug, "program finished", [("program", name), ("result", result), ("duration", "0")]⟩

/-- Run a program text in a new scope inside the top scope. -/
def runSource (h : Host) (fuel : Nat) (source : Text) (s : Store) : Option Outcome :=
  let (scope, s) := s.newScope (some h.top) .empty
  execute h.limits fuel source scope s

/-- Run a program; the answer tells whether it succeeded. -/
def runProgram (h : Host) (fuel : Nat) (p : Program) (s : State) : Option (Bool × State) :=
  let messages := p.announcement :: s.messages
  match p.source h.sourceLimit s.files with
  | .error why => some (false, { s with messages := ⟨.error, why, []⟩ :: messages })
  | .ok (source, files) =>
    (runSource h fuel source s.store).map fun o =>
      let (succeeded, message) : Bool × Message :=
        match o.result with
        | .error fault => (false, ⟨.error, p.name ++ ": " ++ fault.report, []⟩)
        | .ok v => (true, finished p.name (o.store.sourceText v))
      (succeeded, h.traced ⟨o.store, message :: messages, files, s.trace⟩)

/-- Run programs in order up to the first that fails; the answer tells whether all succeeded. -/
def runPrograms (h : Host) (fuel : Nat) : List Program → State → Option (Bool × State)
  | [], s => some (true, s)
  | p :: rest, s =>
    match runProgram h fuel p s with
    | none => none
    | some (false, s) => some (false, s)
    | some (true, s) => runPrograms h fuel rest s

/-- Commands with their numbers, from the given one on. -/
def numbered : Nat → List Text → List Program
  | _, [] => []
  | n, source :: rest => .command n source :: numbered (n + 1) rest

/-- The programs of a command line, in order. -/
def Options.programs (o : Options) : List Program := o.files.map .file ++ numbered 1 o.commands

end TinyScript.CommandLine
