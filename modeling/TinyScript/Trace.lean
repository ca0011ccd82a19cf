import TinyScript.Machine.Run
import TinyScript.Text.Quoted

/-!
# Trace files

A trace file is a JSON array with one object per event. The bracket is opened with the file, events
are written as they come, and the first close writes the closing bracket and closes the file. Times
and the numbers of threads and processes are given with an event. That a file may refuse a write is
left out, and so are writes from several threads at once.
-/

namespace TinyScript

/-- An event of a trace file. -/
structure TraceEvent where
  name : Text
  category : Text
  phase : Text
  time : Int
  process : Int
  thread : Int
deriving DecidableEq, Inhabited

/-- The object of an event. -/
def TraceEvent.toJson (e : TraceEvent) : Text :=
  "\x7b\"name\":" ++ e.name.toJson ++ ",\"cat\":" ++ e.category.toJson ++ ",\"ph\":" ++
    e.phase.toJson ++ ",\"ts\":" ++ Text.ofInt e.time ++ ",\"pid\":" ++ Text.ofInt e.process ++
    ",\"tid\":" ++ Text.ofInt e.thread ++ ",\"s\":\"g\"\x7d"

/-- A trace file: its text, whether an event was written, whether the array has been ended, and how
often the file was closed. -/
structure Trace where
  text : Text
  begun : Bool
  ended : Bool
  closed : Nat
deriving DecidableEq, Inhabited

namespace Trace

/-- A new trace file. -/
def create : Trace := ⟨"[", false, false, 0⟩

/-- Write an event. -/
def add (t : Trace) (e : TraceEvent) : Trace :=
  if t.begun then { t with text := t.text ++ ",\n" ++ e.toJson }
  else { t with text := t.text ++ e.toJson, begun := true }

/-- End the array and close the file; only the first time does anything. -/
def close (t : Trace) : Trace :=
  if t.ended then t
  else { t with text := t.text ++ "]", ended := true, closed := t.closed + 1 }

/-- The category of recorded calls. -/
def category : Text := "egg"

/-- The event of a recorded call; its time is counted from the time given. -/
def ofCall (time : Int) (e : CallEvent) : TraceEvent where
  name := e.name
  category := category
  phase := match e.phase with
    | .begins => "B"
    | .ends => "E"
  time := time
  process := 0
  thread := 0

/-- Write recorded calls, which are given newest first. -/
def addCalls (t : Trace) (events : List CallEvent) : Trace :=
  events.reverse.foldl (fun t e => t.add (ofCall 0 e)) t

/-- The trace file of recorded calls, which are given newest first. -/
def ofCalls (events : List CallEvent) : Trace := create.addCalls events

end Trace

end TinyScript
