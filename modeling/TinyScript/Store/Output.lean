import TinyScript.Text.Basic

/-!
# Output

Where programs print. An output takes writes one by one and may refuse any of them, for any reason;
a refused write leaves nothing behind. That a write is taken only in part is left out.
-/

namespace TinyScript

/-- What has been written, newest first, how many writes were tried, and why the write of each
number is refused, if it is. -/
structure Output where
  written : List Text
  tried : Nat
  refusals : Nat → Option Text
deriving Inhabited

namespace Output

/-- Why writes are refused by an output that has been closed. -/
def closedReason : Text := "sink closed"

/-- An output that nothing has been written to. If its room is bounded, it takes so many writes and
is closed then. -/
def fresh (room : Option Nat) : Output where
  written := []
  tried := 0
  refusals n := if room.all (n < ·) then none else some closedReason

/-- Why the next write is refused, if it is. -/
def refusal? (o : Output) : Option Text := o.refusals o.tried

/-- The output after a write, which leaves nothing behind if it is refused. -/
def write (o : Output) (t : Text) : Output :=
  match o.refusal? with
  | none => { o with written := t :: o.written, tried := o.tried + 1 }
  | some _ => { o with tried := o.tried + 1 }

/-- The output after several writes, refused ones being dropped. -/
def writeAll (o : Output) (ts : List Text) : Output := ts.foldl write o

/-- A write that is taken is there. -/
theorem write_of_taken {o : Output} (h : o.refusal? = none) (t : Text) :
    o.write t = { o with written := t :: o.written, tried := o.tried + 1 } := by
  rw [write, h]

/-- A write that is refused is only counted. -/
theorem write_of_refused {o : Output} {why : Text} (h : o.refusal? = some why) (t : Text) :
    o.write t = { o with tried := o.tried + 1 } := by
  rw [write, h]

/-- Everything written, in order. -/
def text (o : Output) : Text := Text.concat o.written.reverse

/-- Forget what was written, but not the writes that were tried. -/
def clear (o : Output) : Output := { o with written := [] }

end Output

end TinyScript
