/-!
# Paths of files

A path is a text with steps between slashes; a leading slash makes it absolute. An empty step and
`.` stay where they are and `..` goes up. `FilePath.names` leaves out the steps that stay, which
is what a path is called by; walking a path takes all of them. Paths and names may be only so long,
and hold no NUL.
-/

namespace Colloquy.FilePath

/-- The steps of a path, cut at every slash. -/
def steps (path : String) : List String := (path.toList.splitOn '/').map String.ofList

/-- Whether a path starts at the root. -/
def isAbsolute (path : String) : Bool := path.toList.head? = some '/'

/-- Whether a step stays where it is. -/
def stays (step : String) : Bool := step = "" || step = "."

/-- The steps of a path that lead somewhere. -/
def names (path : String) : List String := (steps path).filter fun step => !stays step

/-- The most bytes that a name may have. -/
def nameLimit : Nat := 255

/-- The most bytes that a path may have. -/
def pathLimit : Nat := 4095

/-- Whether a path, or a name, can lead anywhere: it holds no NUL, and not too many bytes. -/
def isUsable (limit : Nat) (path : String) : Bool :=
  !path.toList.contains '\x00' && path.utf8ByteSize ≤ limit

/-- A path taken from a folder, as text; an absolute path is taken as it is. -/
def join (folder path : String) : String :=
  if isAbsolute path then path
  else if folder.toList.getLast? = some '/' then folder ++ path
  else folder ++ "/" ++ path

/-- The last name of a path; none if it ends by going up. -/
def fileName? (path : String) : Option String :=
  match (names path).getLast? with
  | some name => if name = ".." then none else some name
  | none => none

/-- Whether a file name is something before the given ending. -/
def hasEnding (ending name : List Char) : Bool :=
  ending.length < name.length && name.drop (name.length - ending.length) = ending

end Colloquy.FilePath
