import TinyScript.Files
import TinyScript.Text.Blank

/-!
# History

The lines that were typed are kept in a file. Empty lines are left out, and so is a line that is the
same as the one before it, which may be from an earlier time. A file with too many lines is cut to
the last ones when it is opened.
-/

namespace TinyScript.CommandLine

/-- A history: where its file is, and the lines in it that count, newest first. -/
structure History where
  route : Route
  newest : List Text
deriving DecidableEq, Inhabited

namespace History

/-- The number of lines that a history may have. -/
def limit : Nat := 500

/-- The lines of a content that end with a line feed. -/
def lines (content : Text) : List Text := (content.split "\n").dropLast

/-- The lines of a content that count: they are not blank, and characters in them can be read. -/
def kept (content : Text) : List Text :=
  ((lines content).map Text.trim).filterMap fun l =>
    if l.isEmpty then none else some (Text.ofChars l.chars)

/-- The content of a history with some lines. -/
def content (ls : List Text) : Text := Text.concat (ls.map fun l => l ++ "\n")

/-- The path of the file in which a shorter history is made, before it takes its place. -/
def draftPath (path : Text) : Text := path ++ ".tmp"

/-- Cut a history file with too many lines to the last ones that count, if a file can be made for
that beside it. -/
def shorten (files : FileTree) (path : Text) (route : Route) : FileTree :=
  let old := (files.file? route).getD Text.empty
  if (lines old).length ≤ limit then files
  else
    match files.touch (draftPath path) with
    | .error _ => files
    | .ok (draft, files) =>
      let ls := kept old
      (files.remove draft).put route (content (ls.drop (ls.length - limit)))

/-- Open a history file, which is made if it is not there. Where that is impossible, and where there
is no path, there is no history. -/
def start (files : FileTree) (path : Text) : FileTree × Option History :=
  match files.touch path with
  | .error _ => (files, none)
  | .ok (route, files) =>
    let ls := kept ((files.file? route).getD Text.empty)
    (shorten files path route, some ⟨route, ls.reverse⟩)

/-- Add a typed line to a history. -/
def add (h : History) (files : FileTree) (line : Text) : FileTree × History :=
  if line.isEmpty ∨ h.newest.head? = some line then (files, h)
  else (files.append h.route (content [line]), { h with newest := line :: h.newest })

end History

end TinyScript.CommandLine
