import TinyScript.Text.Search

/-!
# Files and folders

A tree of files below a working folder, and what lies around it. Paths are texts with slashes; they
are followed name by name, so that the first name that is missing or is not a folder decides what is
wrong with a path. Some names outside are other names for a file or folder elsewhere.

Some files are streams: what is in them can be read once, and what is written to them is not kept.
-/

namespace TinyScript

/-- The names that lead from the working folder to a file or folder. -/
abbrev Route := List Text

/-- Files with their contents, the folders, and the streams with what is left in them. -/
structure FileTree where
  files : List (Route × Text)
  folders : List Route
  streams : List (Route × Text)
deriving DecidableEq, Inhabited

/-- Why a path cannot be used. -/
inductive PathFault where
  | missing
  | notFolder
  | isFolder
  | taken
  | tooLong
  | invalid
deriving DecidableEq, Inhabited

/-- The words for a fault. -/
def PathFault.message : PathFault → Text
  | missing => "no such file or directory"
  | notFolder => "not a directory"
  | isFolder => "is a directory"
  | taken => "file exists"
  | tooLong => "file name too long"
  | invalid => "invalid argument"

/-- Where a path leads: to a folder, to a file, to a stream, to a free name in a folder, which a
slash after it may mark as a folder's name, or nowhere. -/
inductive Place where
  | folder (route : Route)
  | file (route : Route) (content : Text)
  | stream (route : Route) (content : Text)
  | free (route : Route) (slash : Bool)
  | slashAfterFile
  | nowhere (fault : PathFault)
deriving DecidableEq

/-- Put names one after the other, leaving out those that lead nowhere and letting two dots undo
the name before; `rooted` paths have nothing above their first name. -/
def cleanNames (rooted : Bool) (done : List Text) : List Text → List Text
  | [] => done.reverse
  | name :: rest =>
    if name.isEmpty ∨ name = "." then cleanNames rooted done rest
    else if name = ".." then
      match done with
      | last :: others =>
        if last = ".." then cleanNames rooted (name :: done) rest else cleanNames rooted others rest
      | [] => if rooted then cleanNames rooted [] rest else cleanNames rooted [name] rest
    else cleanNames rooted (name :: done) rest

namespace FileTree

/-- The slash between names, which is also the name of the root. -/
def slash : Text := "/"

/-- The folders that the root has anywhere. -/
def rootFolders : List Text :=
  ["bin", "boot", "dev", "etc", "home", "lib", "media", "mnt", "opt", "proc", "root", "run", "sbin",
    "srv", "sys", "tmp", "usr", "var"]

/-- The folder of a program among all that run. -/
def ownFolder : Route := [slash, "proc", "self"]

/-- The folder of the streams that a program begins with. -/
def streamFolder : Route := [slash, "proc", "self", "fd"]

/-- The stream of what is typed. -/
def typedRoute : Route := [slash, "proc", "self", "fd", "0"]

/-- The stream of what is printed. -/
def outputRoute : Route := [slash, "proc", "self", "fd", "1"]

/-- The stream of messages. -/
def errorsRoute : Route := [slash, "proc", "self", "fd", "2"]

/-- The names of devices that nothing is kept in. -/
def devices : List Text := ["null", "zero", "full", "random", "urandom", "tty"]

/-- The other names of streams and of their folder. -/
def links : List (Route × Route) := [
  ([slash, "dev", "stdin"], typedRoute), ([slash, "dev", "stdout"], outputRoute),
  ([slash, "dev", "stderr"], errorsRoute), ([slash, "dev", "fd"], streamFolder)]

/-- Where a route leads if its last name is another name for something. -/
def linked (r : Route) : Route := (links.lookup r).getD r

/-- A working folder with nothing in it, and what is known of the outside. -/
def empty : FileTree :=
  ⟨[], [slash] :: ownFolder :: streamFolder :: rootFolders.map fun name => [slash, name],
    ([typedRoute, outputRoute, errorsRoute] ++ devices.map fun name => [slash, "dev", name]).map
      fun r => (r, Text.empty)⟩

/-- Whether a route leads to a folder, as do those that only lead upward. -/
def isFolder (t : FileTree) (r : Route) : Bool := r.all (· == "..") || t.folders.contains r

/-- The content of the file at a route. -/
def file? (t : FileTree) (r : Route) : Option Text := t.files.lookup r

/-- What is left in the stream at a route. -/
def stream? (t : FileTree) (r : Route) : Option Text := t.streams.lookup r

/-- Put a file in its place, over the one that may be there; a stream keeps nothing. -/
def put (t : FileTree) (r : Route) (content : Text) : FileTree :=
  if (t.stream? r).isSome then t
  else { t with files := (r, content) :: t.files.filter fun f => f.1 != r }

/-- Remove a file. -/
def remove (t : FileTree) (r : Route) : FileTree :=
  { t with files := t.files.filter fun f => f.1 != r }

/-- Add to the end of a file. -/
def append (t : FileTree) (r : Route) (content : Text) : FileTree :=
  t.put r ((t.file? r).getD Text.empty ++ content)

/-- Write over the beginning of a file. -/
def overlay (t : FileTree) (r : Route) (content : Text) : FileTree :=
  t.put r (content ++ ((t.file? r).getD Text.empty).drop content.size)

/-- Let something come into a stream. -/
def supply (t : FileTree) (r : Route) (content : Text) : FileTree :=
  { t with streams := t.streams.map fun s => if s.1 = r then (r, content) else s }

/-- Add a folder. -/
def addFolder (t : FileTree) (r : Route) : FileTree :=
  if t.isFolder r then t else { t with folders := r :: t.folders }

/-- Add a folder and all folders around it. -/
def addFolders (t : FileTree) (r : Route) : FileTree :=
  (List.range r.length).foldl (fun t i => t.addFolder (r.take (i + 1))) t

/-- The names of a path; empty ones stand for slashes at its ends or next to each other. -/
def names (path : Text) : List Text := path.split slash

/-- A file and the folders around it, at a path from the working folder. -/
def addFile (t : FileTree) (path content : Text) : FileTree :=
  let route := cleanNames false [] (names path)
  (t.addFolders route.dropLast).put route content

/-- The number of bytes that a name may have. -/
def nameLimit : Nat := 255

/-- The number of bytes that a path must not reach. -/
def pathLimit : Nat := 4096

/-- Follow names from a folder. Two dots lead to the folder around it; above the working folder they
are names themselves. -/
def follow (t : FileTree) (here : Route) : List Text → Place
  | [] => .folder here
  | name :: rest =>
    if name.isEmpty ∨ name = "." then t.follow here rest
    else if name = ".." ∧ here = [slash] then t.follow here rest
    else if name = ".." ∧ ¬ here.all (· == "..") then t.follow here.dropLast rest
    else if nameLimit < name.size then .nowhere .tooLong
    else if t.isFolder (linked (here ++ [name])) then t.follow (linked (here ++ [name])) rest
    else
      let next := linked (here ++ [name])
      let found? := match t.file? next, t.stream? next with
        | some content, _ => some (Place.file next content)
        | none, some content => some (Place.stream next content)
        | none, none => none
      match found? with
      | some place =>
        if rest.isEmpty then place
        else if rest.all Text.isEmpty then .slashAfterFile
        else .nowhere .notFolder
      | none =>
        if rest.all Text.isEmpty then .free next (!rest.isEmpty) else .nowhere .missing

/-- Follow a path. One that begins with a slash leads from the root, which has the slash for its
name. -/
def find (t : FileTree) (path : Text) : Place :=
  if path.isEmpty then .nowhere .missing
  else if path.bytes.contains 0 then .nowhere .invalid
  else if pathLimit ≤ path.size then .nowhere .tooLong
  else t.follow (if path.startsWith slash then [slash] else []) (names path)

/-- The routes that names from a folder pass if every name on the way is a folder. -/
def stopsFrom (here : Route) : List Text → List Route
  | [] => []
  | name :: rest =>
    if name.isEmpty ∨ name = "." then stopsFrom here rest
    else if name = ".." ∧ here = [slash] then stopsFrom here rest
    else if name = ".." ∧ ¬ here.all (· == "..") then stopsFrom here.dropLast rest
    else linked (here ++ [name]) :: stopsFrom (linked (here ++ [name])) rest

/-- The routes on which it depends where a path leads. -/
def stops (path : Text) : List Route :=
  if path.startsWith slash then [slash] :: stopsFrom [slash] (names path)
  else stopsFrom [] (names path)

/-- The content of the file that a path leads to, and the files then: of a stream nothing is
left. -/
def read (t : FileTree) (path : Text) : Except PathFault (Text × FileTree) :=
  match t.find path with
  | .file _ content => .ok (content, t)
  | .stream r content => .ok (content, t.supply r Text.empty)
  | .folder _ => .error .isFolder
  | .free _ _ => .error .missing
  | .slashAfterFile => .error .notFolder
  | .nowhere fault => .error fault

/-- The route of the file at a path that is to be written, and the files with it there. -/
def touch (t : FileTree) (path : Text) : Except PathFault (Route × FileTree) :=
  match t.find path with
  | .file r _ | .stream r _ => .ok (r, t)
  | .free r false => .ok (r, t.put r Text.empty)
  | .free _ true | .folder _ | .slashAfterFile => .error .isFolder
  | .nowhere fault => .error fault

/-- Write a file, which is made if it is not there. -/
def write (t : FileTree) (path content : Text) : Except PathFault FileTree :=
  (t.touch path).map fun (r, t) => t.put r content

/-- The part of a path before its last name and the slash in front of that name. -/
def parent (path : Text) : Text :=
  let isSlash (b : UInt8) : Bool := b == 47
  Text.ofBytes
    ((path.bytes.reverse.dropWhile isSlash).dropWhile fun b => !isSlash b).tail.reverse

/-- Make a folder whose parent exists. -/
def makeFolder (t : FileTree) (path : Text) : Except (Text × PathFault) FileTree :=
  match t.find path with
  | .folder _ => .ok t
  | .free r _ => .ok (t.addFolder r)
  | .file _ _ | .stream _ _ => .error (path, .notFolder)
  | .slashAfterFile => .error (path, .taken)
  | .nowhere fault => .error (path, fault)

/-- Make a folder and the folders around it, at most `depth` of them; a fault comes with the path
that it is about. -/
def makeFolders : Nat → FileTree → Text → Except (Text × PathFault) FileTree
  | 0, t, path => t.makeFolder path
  | depth + 1, t, path =>
    match t.find path with
    | .folder _ => .ok t
    | .file _ _ | .stream _ _ => .error (path, .notFolder)
    | _ =>
      if (parent path).isEmpty then t.makeFolder path
      else
        match makeFolders depth t (parent path) with
        | .error fault => .error fault
        | .ok t => t.makeFolder path

/-- The path of a route. -/
def pathOf (r : Route) : Text :=
  match r with
  | [] => Text.empty
  | name :: rest => if name = slash then slash ++ Text.join slash rest else Text.join slash r

/-- The files below a folder, with their paths from there. -/
def below (t : FileTree) (folder : Route) : List (Text × Text) :=
  t.files.filterMap fun (r, content) =>
    if folder.isPrefixOf r then some (pathOf (r.drop folder.length), content) else none

/-- Whether a route stays inside the working folder. -/
def isInside : Route → Bool
  | [] => true
  | name :: _ => name ≠ ".." && name ≠ slash

/-- The files that are not in another tree, or have another content there. -/
def changesFrom (t before : FileTree) : List (Route × Text) :=
  t.files.filter fun (r, content) => before.file? r ≠ some content

/-- The changed files inside the working folder, with their paths. -/
def changesInside (t before : FileTree) : List (Text × Text) :=
  ((t.changesFrom before).filter fun f => isInside f.1).map fun (r, content) => (pathOf r, content)

end FileTree

/-- The shortest path that leads to the same place. -/
def cleanPath (path : Text) : Text :=
  let rooted := path.startsWith FileTree.slash
  let body := Text.join FileTree.slash (cleanNames rooted [] (FileTree.names path))
  if rooted then FileTree.slash ++ body else if body.isEmpty then "." else body

/-- The clean path of a name in a folder. -/
def joinPath (folder name : Text) : Text :=
  if folder.isEmpty then cleanPath name else cleanPath (folder ++ FileTree.slash ++ name)

end TinyScript
