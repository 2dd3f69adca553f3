import Colloquy.FileTree
import Colloquy.Sandbox.Document
import Colloquy.Text.Blank

/-!
# Scenarios

A scenario is what a folder of scripts holds: the texts of all files whose names end in `.dlg`, at
any depth, by their paths inside the folder, and the state of the sandbox that a fresh game starts
from, read from the folder's `host.json` if there is one. It is named by the path of the folder.
-/

namespace Colloquy

/-- Where the world outside the language can fail. -/
inductive Site
  | terminal
  | sourcePath
  | sourceScan
  | sourceRead
  | hostInvalid
  | stateWrite
  | stateRead
  | stateInvalid
deriving DecidableEq, Repr

namespace Site

/-- The code reported for a failure. -/
def code : Site → String
  | terminal => "TUI_IO"
  | sourcePath => "CLI_SOURCE_PATH"
  | sourceScan => "CLI_SOURCE_SCAN"
  | sourceRead => "CLI_SOURCE_READ"
  | hostInvalid => "CLI_HOST_INVALID"
  | stateWrite => "CLI_STATE_WRITE"
  | stateRead => "CLI_STATE_READ"
  | stateInvalid => "CLI_STATE_INVALID"

/-- A failure where no file is to be named. -/
def fault (site : Site) (cause : String) : Fault := .host site.code cause

/-- A failure at a file. -/
def faultAt (site : Site) (path cause : String) : Fault := .host site.code s!"{path}: {cause}"

end Site

/-- A dialogue in files, ready to be played. -/
structure Scenario where
  id : String
  title : String
  sources : NameMap String
  /-- The state that a fresh game starts from. -/
  host : Sandbox.State

namespace Scenario

/-- What stands before the path in the name of a scenario. -/
def idMark : String := "scripts-dir:"

/-- The name of the file with the starting state. -/
def hostFile : String := "host.json"

/-- The scenario with variables laid over those of its starting state. -/
def withVars (s : Scenario) (vars : List (String × Float)) : Scenario :=
  { s with host := s.host.withVars vars }

/-- Whether names lead to a script. -/
def isScript (root : String) (names : List String) : Bool :=
  let name := match names.getLast? with
    | some name => name
    | none => (FilePath.fileName? root).getD ""
  FilePath.hasEnding ".dlg".toList name.toList

/-- The key of a script: its names with slashes between them, and slashes for backslashes. -/
def sourceKey (names : List String) : String :=
  String.ofList (("/".intercalate names).toList.map fun c => if c = '\\' then '/' else c)

/-- The scripts of the tree at a path, by key; `none` if one of them is not text. -/
def scriptsOf? (root : String) (tree : FileTree) : Option (NameMap String) := do
  let scripts ← (tree.files.filter fun f => isScript root f.1).mapM fun f =>
    (String.fromUTF8? f.2).map fun text => (sourceKey f.1, text)
  some (.ofList scripts)

/-- The path of a scripts folder, taken from the current folder; it has to be there. -/
def resolveFolder (d : Disk) (path : String) : Except Fault String :=
  let full := FilePath.join d.currentPath path
  match d.find? full with
  | none => .error (.host "CLI_SOURCE_NOT_FOUND" s!"scripts-dir does not exist: {full}")
  | some (.file _) => .error (.host "CLI_SOURCE_NOT_DIR" s!"scripts-dir is not a directory: {full}")
  | some (.folder _) => .ok full

/-- The scripts in a folder, of which there has to be one. -/
def readScripts (d : Disk) (folder : String) : Except Fault (NameMap String) :=
  match scriptsOf? folder ((d.find? folder).getD (.folder [])) with
  | none => .error (Site.sourceRead.faultAt folder "a script is not text")
  | some scripts =>
    if scripts.size = 0 then .error (.host "CLI_SOURCE_EMPTY" s!"No .dlg files under {folder}")
    else .ok scripts

/-- The starting state beside the scripts; without a file it is empty. -/
def readHost (d : Disk) (folder : String) : Except Fault Sandbox.State :=
  let path := FilePath.join folder hostFile
  match d.bytes? path with
  | none => .ok .empty
  | some content =>
    match String.fromUTF8? content with
    | none => .error (Site.sourceRead.faultAt path "not text")
    | some text =>
      match (Json.read? text).bind (Sandbox.State.ofJson? Json.depthLimit) with
      | none => .error (Site.hostInvalid.faultAt path "not a sandbox state")
      | some state => .ok state

/-- The scenario in the folder that a path leads to. -/
def load (d : Disk) (path : String) : Except Fault Scenario := do
  let folder ← resolveFolder d path
  let sources ← readScripts d folder
  let host ← readHost d folder
  let name := (FilePath.fileName? folder).getD "unknown"
  .ok ⟨idMark ++ folder, s!"Scripts {name}", sources, host⟩

/-- The path in the name of a scenario. -/
def pathOfId? (id : String) : Option String :=
  let mark := idMark.toList
  let cs := id.toList
  if cs.take mark.length = mark then some (String.ofList (cs.drop mark.length)) else none

/-- The scenario with the given name. -/
def loadById (d : Disk) (id : String) : Except Fault Scenario :=
  match pathOfId? id with
  | some path => load d path
  | none => .error (.host "CLI_SOURCE_REF_INVALID" s!"Unsupported scenario ref: {id}")

end Scenario

/-- A variable with its value, written `name=number`; blanks around either do not count. -/
def parseVar (raw : String) : Except Fault (String × Float) :=
  let invalid : Except Fault (String × Float) :=
    .error (.host "CLI_VAR_INVALID" s!"Expected name=number, got \"{raw}\".")
  let cs := raw.toList
  let name := trimChars (cs.takeWhile (· ≠ '='))
  match cs.dropWhile (· ≠ '=') with
  | [] => invalid
  | _ :: value =>
    match Number.ofText? (String.ofList (trimChars value)) with
    | some x => if name = [] then invalid else .ok (String.ofList name, x)
    | none => invalid

end Colloquy
