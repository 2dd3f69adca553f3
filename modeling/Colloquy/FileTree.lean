import Colloquy.FilePath
import Colloquy.NameMap

/-!
# Files and folders

A file tree is a file or a folder of named trees, which stand in the order of their names, so that
a tree lists its files in one order. `FileTree.find?` and `FileTree.put` reach along a list of
names. A `Disk` is a tree with a current folder, and paths are walked in it as texts: every step,
one that stays in place included, has to be taken from a folder that is there.
-/

namespace Colloquy

/-- A file with its bytes, or a folder. -/
inductive FileTree
  | file (content : ByteArray)
  | folder (entries : List (String × FileTree))
deriving Inhabited

namespace FileTree

/-- Whether a tree is a folder. -/
def isFolder : FileTree → Bool
  | folder _ => true
  | file _ => false

/-- The entry of a folder with the given name. -/
def entry? (name : String) : FileTree → Option FileTree
  | folder entries => entries.lookup name
  | file _ => none

/-- The tree that a list of names leads to. -/
def find? : List String → FileTree → Option FileTree
  | [], tree => some tree
  | name :: rest, tree => (tree.entry? name).bind (find? rest)

/-- The folder with the given entries; of two of one name the later stays. -/
def ofEntries (entries : List (String × FileTree)) : FileTree :=
  folder (entries.foldl (fun list entry => NameMap.insertEntry entry.1 entry.2 list) [])

/-- Puts a tree where a list of names leads; folders on the way that are missing are made. -/
def put (tree : FileTree) (names : List String) (new : FileTree) : FileTree :=
  match names with
  | [] => new
  | name :: rest =>
    let entries := match tree with
      | folder entries => entries
      | file _ => []
    let inner := put ((entries.lookup name).getD (folder [])) rest new
    folder (NameMap.insertEntry name inner entries)

mutual

/-- Every file of a tree, by the names that lead to it. -/
def files : FileTree → List (List String × ByteArray)
  | file content => [([], content)]
  | folder entries => filesOfEntries entries

/-- Every file of the entries of a folder. -/
def filesOfEntries : List (String × FileTree) → List (List String × ByteArray)
  | [] => []
  | (name, tree) :: rest =>
    (files tree).map (fun f => (name :: f.1, f.2)) ++ filesOfEntries rest

end

end FileTree

/-- A file tree and the names that lead to the current folder. -/
structure Disk where
  root : FileTree
  current : List String

namespace Disk

/-- The path of the current folder. -/
def currentPath (d : Disk) : String := "/" ++ "/".intercalate d.current

/-- Where a path starts. -/
def origin (d : Disk) (path : String) : List String :=
  if FilePath.isAbsolute path then [] else d.current

/-- Takes steps from a place; `none` if there is nothing at one of them. -/
def walk (root : FileTree) : List String → List String → Option (List String)
  | place, [] => some place
  | place, step :: rest =>
    match root.find? place with
    | some (.folder entries) =>
      if FilePath.stays step then walk root place rest
      else if step = ".." then walk root place.dropLast rest
      else if (entries.lookup step).isSome then walk root (place ++ [step]) rest
      else none
    | _ => none

/-- The names that lead to what a path leads to. -/
def locate? (d : Disk) (path : String) : Option (List String) :=
  if path = "" ∨ !FilePath.isUsable FilePath.pathLimit path then none
  else walk d.root (d.origin path) (FilePath.steps path)

/-- What a path leads to. -/
def find? (d : Disk) (path : String) : Option FileTree :=
  (d.locate? path).bind fun place => d.root.find? place

/-- The bytes of the file that a path leads to. -/
def bytes? (d : Disk) (path : String) : Option ByteArray :=
  match d.find? path with
  | some (.file content) => some content
  | _ => none

/-- The text of the file that a path leads to, if it is one. -/
def text? (d : Disk) (path : String) : Option String :=
  (d.bytes? path).bind String.fromUTF8?

/-- Takes steps from a place and makes the folders that are missing. It gives the tree as far as
it got, and where the steps lead; nothing if a file stands in the way, or a folder cannot have its
name. -/
def makeFolders : FileTree → List String → List String → FileTree × Option (List String)
  | root, place, [] => (root, some place)
  | root, place, step :: rest =>
    if FilePath.stays step then makeFolders root place rest
    else if step = ".." then makeFolders root place.dropLast rest
    else
      let place := place ++ [step]
      match root.find? place with
      | some (.folder _) => makeFolders root place rest
      | some (.file _) => (root, none)
      | none =>
        if FilePath.isUsable FilePath.nameLimit step then
          makeFolders (root.put place (.folder [])) place rest
        else (root, none)

/-- Writes a file in a folder that is there; whether that was possible. -/
def writeFile (d : Disk) (path : String) (content : ByteArray) : Option Disk :=
  match (FilePath.steps path).reverse with
  | [] => none
  | name :: before =>
    if FilePath.stays name ∨ name = ".." ∨ !FilePath.isUsable FilePath.nameLimit name ∨
        !FilePath.isUsable FilePath.pathLimit path then none
    else do
      let place ← walk d.root (d.origin path) before.reverse
      let tree ← d.root.find? place
      match tree with
      | .file _ => none
      | .folder entries =>
        match entries.lookup name with
        | some (.folder _) => none
        | _ => some { d with root := d.root.put (place ++ [name]) (.file content) }

/-- Makes the folder that is to hold a file, by the names of the file's path without the last. None
is made if the path to that folder cannot lead anywhere. -/
def makeParent (d : Disk) (path : String) : Disk × Bool :=
  let names := (FilePath.names path).dropLast
  if FilePath.isUsable FilePath.pathLimit ("/".intercalate names) then
    let (root, place) := makeFolders d.root (d.origin path) names
    ({ d with root }, place.isSome)
  else (d, false)

end Disk

end Colloquy
