import TinyScript.Config.Level
import TinyScript.Text.Escape
import TinyScript.Text.Search

/-!
# Log lines

A message with its level, the name of the program, and named fields. A field with line feeds takes
lines of its own.
-/

namespace TinyScript.CommandLine

/-- A message with named fields. -/
structure Message where
  level : Level
  text : Text
  fields : List (Text × Text)
deriving DecidableEq, Inhabited

namespace Message

/-- What stands in front of each line of a field that takes lines of its own. -/
def margin : Text := "  │ "

/-- The lines of a field that takes lines of its own; the last line ends with a line feed if more
fields follow, and is left out if it is empty. -/
def fieldLines (more : Bool) : List Text → Text
  | [] => Text.empty
  | [last] =>
    if last.isEmpty then Text.empty
    else margin ++ last.logText false ++ (if more then "\n" else "")
  | line :: rest => margin ++ line.logText false ++ "\n" ++ fieldLines more rest

/-- A field with the space in front of it. -/
def field (more : Bool) (name value : Text) : Text :=
  if (value.find? "\n").isSome then
    "\n  " ++ name ++ "=\n" ++ fieldLines more (value.split "\n")
  else " " ++ name ++ "=" ++ value.logField

/-- Fields, one after the other. -/
def fieldTexts : List (Text × Text) → Text
  | [] => Text.empty
  | (name, value) :: rest => field (!rest.isEmpty) name value ++ fieldTexts rest

/-- The message itself, in which a tab is shown as four spaces. -/
def body (t : Text) : Text := Text.join "    " (t.split "\t")

/-- The line of a message. -/
def line (m : Message) : Text :=
  m.level.mark ++ " egg: " ++ body m.text ++ fieldTexts m.fields ++ "\n"

end Message

end TinyScript.CommandLine
