import Dashboard.CommandLine.Path
import Dashboard.Table
/-!
# Folders

A folder holds files and folders under places, which are lists of names. Paths may go through `.`
and `..`, but only through folders that exist. All that lies outside is taken for one more folder,
which holds nothing but what was made there. Making a folder together with those it stands in may
fail on the way; the folders that were made until then stay.
-/

namespace Dashboard.CommandLine

open Text

inductive FolderEntry where
  | file (content : String)
  | folder
deriving DecidableEq, Repr

/-- The entries below a folder by their names, joined with slashes. -/
abbrev Folder := Table FolderEntry

namespace Folder

abbrev Names := List String

def key (names : Names) : String := joined "/" names

/-- The place of all that lies outside. No file can have this name. -/
def outside : Names := [".."]

/-- What the folder itself holds. -/
def inside (f : Folder) : Folder := f.filter fun e => !startsWith "../" e.1

/-- The folders that the last of some names stands in, after the names that lead to them. -/
def parentKeys (before : Names) : Names → List String
  | name :: next :: names => key (before ++ [name]) :: parentKeys (before ++ [name]) (next :: names)
  | _ => []

/-- Puts a file under its path, in folders that are there for it. -/
def putFile (f : Folder) (file : String × String) : Folder :=
  let folders := parentKeys [] ((fields '/' file.1.toList).map String.ofList)
  Table.put file.1 (.file file.2) (folders.foldl (fun f k => Table.put k .folder f) f)

def ofFiles (files : List (String × String)) : Folder := files.foldl putFile []

def entry? (f : Folder) (place : Names) : Option FolderEntry :=
  if place.isEmpty || place == outside then some .folder else f.find? (key place)

def enter (f : Folder) (place : Names) : Except FileError Unit :=
  match f.entry? place with
  | some .folder => .ok ()
  | some (.file _) => .error .notFolder
  | none => .error .notFound

/-- The place that a place stands in. -/
def above (place : Names) : Names :=
  if place.isEmpty || place == outside then outside else place.dropLast

/-- Follows names from a place on. What comes before another name has to be a folder. -/
def follow (f : Folder) (place : Names) : Names → Except FileError Names
  | [] => .ok place
  | name :: names => do
    f.enter place
    if name = "." then f.follow place names
    else if name = ".." then f.follow (above place) names
    else if Path.longestName < name.utf8ByteSize then .error .nameTooLong
    else f.follow (place ++ [name]) names

/-- The place where a path starts. -/
def start (p : Path) : Names := if p.fromRoot then outside else []

def read (f : Folder) (path : String) : Except FileError String := do
  let p ← Path.ofText path
  match f.entry? (← f.follow (start p) p.names) with
  | some (.file content) => if p.endsInSlash then .error .notFolder else .ok content
  | some .folder => .error .isFolder
  | none => .error .notFound

/-- Writes a file. Where the path asks for a folder, only the folder around it is looked for. -/
def write (f : Folder) (path content : String) : Except FileError Folder := do
  let p ← Path.ofText path
  if p.endsInSlash then
    f.enter (← f.follow (start p) p.names.dropLast)
    .error .isFolder
  else
    let place ← f.follow (start p) p.names
    if f.entry? place = some .folder then .error .isFolder
    else .ok (Table.put (key place) (.file content) f)

def make (f : Folder) (start names : Names) : Except FileError Folder := do
  let place ← f.follow start names
  match f.entry? place with
  | some _ => .error .exists
  | none => .ok (Table.put (key place) .folder f)

def isFolder (f : Folder) (start names : Names) : Bool :=
  match f.follow start names with
  | .ok place => f.entry? place == some .folder
  | .error _ => false

/-- Makes a folder unless there is one. -/
def ensure (f : Folder) (start names : Names) : Folder × Option FileError :=
  match f.make start names with
  | .ok f => (f, none)
  | .error e => (f, if f.isFolder start names then none else some e)

/-- Makes a folder, and before it what it stands in if its place cannot be reached. -/
def ensureAfter (f : Folder) (start names : Names) (around : Folder × Option FileError) :
    Folder × Option FileError :=
  match f.make start names, around with
  | .error .notFound, (f, none) => f.ensure start names
  | .error .notFound, failed => failed
  | _, _ => f.ensure start names

/-- Makes a folder and those it stands in, from the last name that leads to it to the first. -/
def ensureAll (f : Folder) (start : Names) : Names → Folder × Option FileError
  | [] => (f, none)
  | name :: names => f.ensureAfter start (name :: names).reverse (f.ensureAll start names)

def createAll (f : Folder) (path : String) : Folder × Option FileError :=
  match Path.ofText path with
  | .error e => (f, some e)
  | .ok p => f.ensureAfter (start p) p.names (f.ensureAll (start p) p.parents.reverse)

end Folder

end Dashboard.CommandLine
