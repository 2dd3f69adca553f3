import Colloquy.Command.Run

/-!
# The program

`main` runs the command that its arguments stand for. It gathers the files that the command reads
into a disk, runs the command on it, and writes the saved game that the command leaves. A game
played in person goes line by line, with the saved game read and written around each line.
-/

namespace Colloquy.Terminal

/-- Runs an action that may fail, and gives the cause if it does. -/
def attempt {α : Type} (act : IO α) : IO (Except String α) := do
  match ← act.toBaseIO with
  | .ok value => pure (.ok value)
  | .error cause => pure (.error (toString cause))

/-- Runs an action that may fail to find what it looks for. -/
def found? {α : Type} (act : IO α) : IO (Option α) := do pure (← attempt act).toOption

/-- Whether there is a folder at a path. -/
def isFolder (path : String) : IO Bool := do
  let answer ← found? do (← IO.FS.realPath path).isDir
  pure (answer.getD false)

/-- What is at a path: of a folder its whole contents, of a file its bytes if they are wanted. -/
partial def readTree (wanted : String → Bool) (path : String) : IO (Option FileTree) := do
  if ← isFolder path then
    let entries ← (← IO.FS.realPath path).readDir
    let trees ← entries.toList.mapM fun entry => do
      let tree ← readTree wanted (FilePath.join path entry.fileName)
      pure (tree.map fun tree => (entry.fileName, tree))
    pure (some (.ofEntries (trees.filterMap id)))
  else if wanted ((FilePath.fileName? path).getD "") then
    found? do pure (.file (← IO.FS.readBinFile path))
  else found? do
    let _ ← IO.FS.realPath path
    pure (.file .empty)

/-- Whether a scenario reads a file of this name. -/
def isScenarioFile (name : String) : Bool :=
  Scenario.isScript "" [name] || name = Scenario.hostFile

/-- Puts what `read` finds at a path on a disk, and the folders that the path goes through. -/
def mount (read : String → IO (Option FileTree)) (path : String) (d : Disk) : IO Disk := do
  let mut place := d.origin path
  let mut root := d.root
  let mut here := if FilePath.isAbsolute path then "/" else "."
  for step in FilePath.names path do
    place := if step = ".." then place.dropLast else place ++ [step]
    here := FilePath.join here step
    if (root.find? place).isNone then
      if ← isFolder here then root := root.put place (.folder [])
  match ← read path with
  | some tree => pure { d with root := root.put place tree }
  | none => pure { d with root }

/-- Puts a folder of scripts on a disk. The empty path is the current folder. -/
def mountScripts (path : String) (d : Disk) : IO Disk :=
  mount (readTree isScenarioFile) (FilePath.join d.currentPath path) d

/-- Puts a saved game on a disk, if there is one. -/
def mountSave (path : String) (d : Disk) : IO Disk :=
  mount (fun path => found? do pure (.file (← IO.FS.readBinFile path))) path d

/-- The empty disk at the current folder. -/
def currentDisk : IO Disk := do
  let current := FilePath.names (← IO.FS.realPath ".").toString
  pure ⟨(FileTree.folder []).put current (.folder []), current⟩

/-- The disk with all that a command looks at. -/
def gather : Command → IO Disk
  | .start scripts _ _ stateOut => do mountSave stateOut (← mountScripts scripts (← currentDisk))
  | .choose stateIn _ stateOut => do
    let d ← mountSave stateIn (← currentDisk)
    let saved := (d.text? stateIn).bind SavedGame.ofText?
    let d ← match saved.bind fun saved => Scenario.pathOfId? saved.scenarioId with
      | some scripts => mountScripts scripts d
      | none => pure d
    mountSave stateOut (← mountSave stateIn d)
  | .play scripts _ _ _ | .check scripts _ | .dump scripts => do
    mountScripts scripts (← currentDisk)

/-- Makes the folders on the way to a path that a disk has and that were not there before. -/
def storeFolders (path : String) (before after : Disk) : IO Unit := do
  let mut place := after.origin path
  let mut here := if FilePath.isAbsolute path then "/" else "."
  for step in (FilePath.names path).dropLast do
    place := if step = ".." then place.dropLast else place ++ [step]
    here := FilePath.join here step
    if (before.root.find? place).isNone && (after.root.find? place).isSome then
      let _ ← found? (IO.FS.createDir here)

/-- Writes the file at a path if a disk has another content there than before, and the folders on
the way to it. -/
def store (path : String) (before after : Disk) : IO (Except Fault Unit) := do
  storeFolders path before after
  match after.bytes? path with
  | none => pure (.ok ())
  | some content =>
    if (before.bytes? path).any (·.data == content.data) then pure (.ok ())
    else
      let written ← attempt (IO.FS.writeBinFile path content)
      pure (written.mapError (Site.stateWrite.faultAt path))

/-- Writes an output and gives its exit code. -/
def finish (out : Command.Output) : IO UInt32 := do
  let output ← IO.getStdout
  output.putStr out.text
  output.flush
  pure (UInt32.ofNat out.code)

/-- Plays on from the given progress. -/
partial def play (s : Setting) (p : LinePlayer.Progress) : IO UInt32 := do
  let _ ← finish ⟨p.output, 0⟩
  match p.verdict with
  | some (.ok ()) => pure 0
  | some (.error fault) => finish (Command.outputOf (.error fault))
  | none =>
    match ← attempt do (← IO.getStdin).getLine with
    | .error cause => finish (Command.outputOf (.error (Site.terminal.fault cause)))
    | .ok "" => pure 0
    | .ok line =>
      let disk ← mountSave s.stateFile p.player.disk
      let next := LinePlayer.Progress.take s ⟨{ p.player with disk }, "", none⟩ line
      match ← store s.stateFile disk next.player.disk with
      | .ok () => play s next
      | .error fault => finish (Command.outputOf (.error fault))

/-- Runs a command. -/
def run (command : Command) : IO UInt32 := do
  let disk ← gather command
  match command with
  | .play scripts stateFile vars _ =>
    match Command.preparePlay disk scripts stateFile vars with
    | .error fault => finish (Command.outputOf (.error fault))
    | .ok (setting, player) => play setting (LinePlayer.begin setting player)
  | command =>
    let (out, after) := Command.run disk "" command
    let stateOut := match command with
      | .start _ _ _ stateOut | .choose _ _ stateOut => stateOut
      | _ => ""
    match ← store stateOut disk after with
    | .ok () => finish out
    | .error fault => finish (Command.outputOf (.error fault))

/-- How the program is called. -/
def usage : String :=
  LinePlayer.linesText
    ["usage:",
     "  agent start --scripts-dir DIR --state-out FILE [--var NAME=NUMBER] [--visible-indexing]",
     "  agent choose --state-in FILE --choice INDEX --state-out FILE",
     "  tui --scripts-dir DIR [--state-file FILE] [--var NAME=NUMBER] [--line]",
     "  check --scripts-dir DIR [--strict]",
     "  dump --scripts-dir DIR"]

end Colloquy.Terminal

/-- Runs the command that the arguments stand for. -/
def main (args : List String) : IO UInt32 := do
  match Colloquy.Command.ofArguments args with
  | .ok command => Colloquy.Terminal.run command
  | .error .help => Colloquy.Terminal.finish ⟨Colloquy.Terminal.usage, 0⟩
  | .error .mistake => do
    IO.eprint Colloquy.Terminal.usage
    pure 2
