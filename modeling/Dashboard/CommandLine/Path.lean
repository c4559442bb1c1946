import Dashboard.Text.Ascii
/-!
# Paths

A path leads over names that are separated by slashes, from the folder where the program runs or,
with a slash in front, from the root. Slashes at its end ask for a folder. An access to a file fails
for the reasons and with the words of the operating system; some paths fail by their text alone.
-/

namespace Dashboard.CommandLine

open Text

inductive FileError where
  | notFound | notFolder | isFolder | exists | nameTooLong | zeroInName
deriving DecidableEq, Repr

def FileError.message : FileError → String
  | .notFound => "No such file or directory (os error 2)"
  | .notFolder => "Not a directory (os error 20)"
  | .isFolder => "Is a directory (os error 21)"
  | .exists => "File exists (os error 17)"
  | .nameTooLong => "File name too long (os error 36)"
  | .zeroInName => "file name contained an unexpected NUL byte"

structure Path where
  fromRoot : Bool := false
  names : List String
  endsInSlash : Bool := false
deriving DecidableEq, Repr

namespace Path

/-- The most bytes of a whole path. -/
def longest : Nat := 4095

/-- The most bytes of one name. -/
def longestName : Nat := 255

def slashAtEnd (s : String) : Bool := s.toList.getLast? == some '/'

def ofText (s : String) : Except FileError Path :=
  if s.toList.contains '\x00' then .error .zeroInName
  else if longest < s.utf8ByteSize then .error .nameTooLong
  else .ok {
    fromRoot := startsWith "/" s
    names := ((fields '/' s.toList).map String.ofList).filter (· != "")
    endsInSlash := slashAtEnd s }

/-- The names that lead to the folder that a path stands in. A dot names no folder of its own. -/
def parents (p : Path) : List String := (p.names.filter (· != ".")).dropLast

/-- The path of a file in a folder. -/
def join (folder file : String) : String :=
  if slashAtEnd folder then folder ++ file else folder ++ "/" ++ file

end Path

end Dashboard.CommandLine
