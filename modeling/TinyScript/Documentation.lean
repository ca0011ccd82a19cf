import TinyScript.Builtin.Help
import TinyScript.Files
import TinyScript.Text.Escape

/-!
# Documentation

The catalogue as Markdown: a page for each chapter, and an index of the chapters.
-/

namespace TinyScript.Documentation

/-- A page: the name of its file and its content. -/
structure Page where
  name : String
  content : String
deriving DecidableEq, Inhabited

/-- A character of a page name that stands for one of a title, if it has one. -/
def slugChar? (c : Char) : Option Char :=
  if c = ' ' then some '-'
  else if 'A' ≤ c ∧ c ≤ 'Z' then some (Char.ofNat (c.toNat + 32))
  else if ('a' ≤ c ∧ c ≤ 'z') ∨ ('0' ≤ c ∧ c ≤ '9') ∨ c = '-' ∨ c = '_' then some c
  else none

/-- The name of a chapter's page, without its ending: small letters, digits and dashes. -/
def slug (title : String) : String := String.ofList (title.toList.filterMap slugChar?)

/-- The name of a chapter's page. -/
def pageName (title : String) : String := slug title ++ ".md"

/-- The line about a parameter. -/
def parameter (p : Parameter) : String :=
  "- **" ++ p.name ++ "** (`" ++ p.type ++ "`): " ++ p.note ++ "\n"

/-- The list of parameters. -/
def parameters (ps : List Parameter) : String :=
  if ps.isEmpty then "_This function has no parameters._\n\n"
  else String.join (ps.map parameter) ++ "\n"

/-- The section about an entry. -/
def entrySection (e : Entry) : String :=
  "## " ++ e.name ++ "\n\n" ++
    (if e.signature.summary.isEmpty then "" else e.signature.summary ++ "\n\n") ++
    "**Allowed number of parameters:** " ++ e.signature.arity ++ "\n\n" ++
    "### Parameters\n\n" ++ parameters e.signature.params ++
    "### Returns\n\n`" ++ e.signature.returns ++ "`\n\n"

/-- The page of a chapter. -/
def page (chapter : Chapter) : Page :=
  ⟨pageName chapter.title,
    "# " ++ chapter.title ++ "\n\n" ++ String.join (chapter.entries.map entrySection)⟩

/-- The index of the chapters. -/
def index : Page :=
  ⟨"index.md", "# Documentation\n\n" ++ String.join (Catalogue.chapters.map fun chapter =>
    "- [" ++ chapter.title ++ "](" ++ pageName chapter.title ++ ")\n")⟩

/-- All pages, the index first. -/
def pages : List Page := index :: Catalogue.chapters.map page

/-- Write pages into a folder, up to the first that cannot be written; the text says why. -/
def writePages (folder : Text) : FileTree → List Page → FileTree × Option Text
  | t, [] => (t, none)
  | t, p :: rest =>
    let path := joinPath folder (Text.ofString p.name)
    match t.write path (Text.ofString p.content) with
    | .ok t => writePages folder t rest
    | .error fault =>
      (t, some ("failed to create " ++ path ++ ": open " ++ path ++ ": " ++ fault.message))

/-- Write the documentation into a folder, which is made if it is not there; the text says why that
failed. -/
def write (folder : Text) (t : FileTree) : FileTree × Option Text :=
  match t.makeFolders folder.size folder with
  | .error (path, fault) =>
    (t, some ("failed to create folder " ++ folder.quote ++ ": mkdir " ++ path ++ ": " ++
      fault.message))
  | .ok t => writePages folder t pages

end TinyScript.Documentation
