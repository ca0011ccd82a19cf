import TinyScript.Builtin.Catalogue
import TinyScript.Fault

/-!
# Help

The lines that help prints: an overview of the catalogue, or the description of one entry.
-/

namespace TinyScript

/-- How many arguments a signature allows, in words. -/
def Signature.arity (s : Signature) : String :=
  match s.most with
  | none => s.least.repr ++ " or more"
  | some most => if s.least = most then s.least.repr else s.least.repr ++ "-" ++ most.repr

namespace Help

/-- The lines of the overview. -/
def overview : List String :=
  ["Available functions:"] ++
    (Catalogue.chapters.flatMap fun chapter =>
      ["", "-- " ++ chapter.title ++ " --"] ++
        chapter.entries.map fun e => "  " ++ e.name ++ ": " ++ e.signature.summary) ++
    ["", "type help(\"name\") to get more info"]

/-- The lines that describe one entry. -/
def describe (e : Entry) : List String :=
  ["Help for: " ++ e.name, "===", "", e.signature.summary, "",
    "Allowed number of parameters: " ++ e.signature.arity, ""] ++
    (e.signature.params.map fun p => " - " ++ p.name ++ " (" ++ p.type ++ "): " ++ p.note) ++
    [""]

/-- The lines of help on a name, each with its line feed; the empty name asks for the overview. -/
def lines (name : Text) : Except Cause (List Text) :=
  if name.isEmpty then .ok (overview.map fun l => Text.ofString (l ++ "\n"))
  else
    match Catalogue.find? name with
    | some e => .ok ((describe e).map fun l => Text.ofString (l ++ "\n"))
    | none => .error (.unknownFunction name)

end Help

end TinyScript
