import TinyScript.CommandLine.Run

/-!
# The program

Reads the arguments and the files that they name, runs them, and writes what comes of it. A session
is fed line by line as it is typed, and watched files are looked at ten times a second. Only here
is anything read or written; all decisions are made by the definitions that it calls.
-/

namespace TinyScript.CommandLine

/-- The string of a text, if it is one. -/
def stringOf? (t : Text) : Option String := String.fromUTF8? t.data

/-- Add what is found at a route. Of the streams only the one of what is typed is looked at, and
what it held before stays if nothing more comes. -/
def observeRoute (files : FileTree) (route : Route) : IO FileTree := do
  if (files.stream? route).isSome && route != FileTree.typedRoute then return files
  match stringOf? (FileTree.pathOf route) with
  | none => return files
  | some path =>
    try
      let content : Text := ⟨← IO.FS.readBinFile path⟩
      let files := files.put route content
      return if content.isEmpty then files else files.supply route content
    catch
      | .inappropriateType .. => return files.addFolder route
      | _ => return files

/-- Add what is found on the way to some paths. -/
def observe (files : FileTree) (paths : List Text) : IO FileTree :=
  (paths.flatMap FileTree.stops).foldlM observeRoute files

/-- Write a text to a stream. -/
def writeTo (stream : IO.FS.Stream) (t : Text) : IO Unit := do
  stream.write t.data
  stream.flush

/-- Write the files that are not as they were before, and remove those that are no more. -/
def storeChanges (files before : FileTree) : IO Unit := do
  for (route, content) in files.changesFrom before do
    match stringOf? (FileTree.pathOf route.dropLast), stringOf? (FileTree.pathOf route) with
    | some folder, some name =>
      if !folder.isEmpty then IO.FS.createDirAll folder
      IO.FS.writeBinFile name content.data
    | _, _ => pure ()
  for (route, _) in before.files do
    if (files.file? route).isNone then
      match stringOf? (FileTree.pathOf route) with
      | some name => IO.FS.removeFile name
      | none => pure ()

/-- Write what a run came to. -/
def deliver (r : Result) (before : FileTree) : IO UInt32 := do
  writeTo (← IO.getStdout) r.output
  writeTo (← IO.getStderr) r.errors
  storeChanges r.files before
  return UInt32.ofNat r.status

/-- Write what programs and messages have written so far, and forget it. -/
def deliverSoFar (level : Level) (s : State) : IO State := do
  writeTo (← IO.getStdout) s.store.output.text
  writeTo (← IO.getStderr) (logText level s.messages)
  return { s with store := { s.store with output := s.store.output.clear }, messages := [] }

/-- Feed what is typed to a session until it ends. -/
def converse (l : Live) (before : FileTree) : IO UInt32 := do
  let stdin ← IO.getStdin
  let mut live := l
  let mut stay := true
  while stay do
    let s ← deliverSoFar live.job.checked.level live.state
    let session := { live.console.session with store := s.store }
    let console := { live.console with session := session }
    live := { live with console := console, messages := s.messages }
    let line ← stdin.getLine
    let keys := typedKeys (Text.ofString line)
    match live.pressAll unbounded (if line.isEmpty then [.stop] else keys) with
    | none => stay := false
    | some (goesOn, next) =>
      live := next
      stay := goesOn && !line.isEmpty
  deliver live.finish before

/-- Run program files again whenever one of them changes. -/
def keepWatching (job : Job) (s : State) : IO UInt32 := do
  let mut state := s
  repeat
    state ← deliverSoFar job.checked.level state
    IO.sleep 100
    let files ← observe state.files job.options.files
    let changed := job.options.files.find? fun path =>
      ((files.read path).toOption.map Prod.fst) != ((state.files.read path).toOption.map Prod.fst)
    state := { state with files := files }
    match changed with
    | none => pure ()
    | some path => state := (job.reload unbounded path state).getD state
  return 0

end TinyScript.CommandLine

open TinyScript.CommandLine in
/-- Run the command line. -/
def main (args : List String) : IO UInt32 := do
  let arguments := args.map TinyScript.Text.ofString
  let named ← observe .empty (paths arguments .empty)
  let files ← observe named (paths arguments named)
  match start .standard TinyScript.unbounded arguments files with
  | none => return 1
  | some (.finished r) => deliver r files
  | some (.session l) => converse l files
  | some (.watching j s) => keepWatching j s
