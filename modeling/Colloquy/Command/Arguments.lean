import Colloquy.Text.Index

/-!
# Command-line arguments

The commands are `agent start`, `agent choose`, `tui`, `check` and `dump`. Each has options of its
own, all of them long; `--name value` and `--name=value` mean the same, a flag has no value, and
only options that collect values may be given twice. A value that is taken from the next argument
must not look like an option. Asking for help, by `--help`, `-h` or the word `help` in the place
of a command, ends the reading at once, unless a mistake stands before it.
-/

namespace Colloquy.Command

/-- Why arguments are not a command. -/
inductive Usage
  /-- Help was asked for. -/
  | help
  | mistake
deriving DecidableEq, Repr

/-- What an option takes. -/
inductive OptionKind
  | flag
  | single
  | collected
  /-- A single value that has to be an index. -/
  | index
deriving DecidableEq, Repr

/-- The options of a command, by their names without dashes. -/
abbrev OptionTable := List (String × OptionKind)

/-- The options given, in order, with their values; flags have an empty one. -/
abbrev Given := List (String × String)

/-- Whether an argument looks like an option. -/
def looksLikeOption (arg : String) : Bool :=
  match arg.toList with
  | '-' :: _ :: _ => true
  | _ => false

/-- The name and the attached value of a long option, if the argument is one. -/
def longOption? (arg : String) : Option (String × Option String) :=
  match arg.toList with
  | '-' :: '-' :: c :: rest =>
    let body := c :: rest
    let name := String.ofList (body.takeWhile (· ≠ '='))
    match body.dropWhile (· ≠ '=') with
    | _ :: value => some (name, some (String.ofList value))
    | [] => some (name, none)
  | _ => none

/-- Whether an argument is a cluster of short options that starts by asking for help. -/
def asksHelp (arg : String) : Bool :=
  match arg.toList with
  | '-' :: 'h' :: _ => true
  | _ => false

/-- Adds an option that was given, if it may be given (again) and takes this value. -/
def Given.add (given : Given) (name value : String) (kind : OptionKind) : Except Usage Given :=
  if kind ≠ .collected ∧ (given.lookup name).isSome then .error .mistake
  else if kind = .index ∧ (index? value).isNone then .error .mistake
  else .ok (given ++ [(name, value)])

/-- The options that the arguments give. -/
def readOptions (table : OptionTable) (given : Given) (args : List String) :
    Except Usage Given :=
  match args with
  | [] => .ok given
  | arg :: rest =>
    if arg = "--" then if rest = [] then .ok given else .error .mistake
    else match longOption? arg with
      | some (name, attached) =>
        match table.lookup name, attached with
        | some .flag, none =>
          match given.add name "" .flag with
          | .ok given => readOptions table given rest
          | .error usage => .error usage
        | some .flag, some _ => .error .mistake
        | some kind, some value =>
          match given.add name value kind with
          | .ok given => readOptions table given rest
          | .error usage => .error usage
        | some kind, none =>
          match rest with
          | [] => .error .mistake
          | value :: rest =>
            if looksLikeOption value then .error .mistake
            else match given.add name value kind with
              | .ok given => readOptions table given rest
              | .error usage => .error usage
        | none, _ => if name = "help" ∧ attached = none then .error .help else .error .mistake
      | none => if asksHelp arg then .error .help else .error .mistake

/-- A value that has to be given. -/
def Given.required (given : Given) (name : String) : Except Usage String :=
  match given.lookup name with
  | some value => .ok value
  | none => .error .mistake

/-- All values of a collecting option, in order. -/
def Given.all (given : Given) (name : String) : List String :=
  (given.filter (·.1 = name)).map (·.2)

/-- Whether a flag is given. -/
def Given.has (given : Given) (name : String) : Bool := (given.lookup name).isSome

end Command

/-- What to do. -/
inductive Command
  /-- Enter the first label of a fresh game and save it. -/
  | start (scripts : String) (vars : List String) (visible : Bool) (stateOut : String)
  /-- Submit one choice to a saved game and save it again. -/
  | choose (stateIn : String) (choice : Nat) (stateOut : String)
  /-- Play in person. -/
  | play (scripts : String) (stateFile : Option String) (vars : List String) (line : Bool)
  /-- Build the dialogue and tell what is remarkable about it. -/
  | check (scripts : String) (strict : Bool)
  /-- Build the dialogue and write it as a document. -/
  | dump (scripts : String)
deriving DecidableEq, Repr

namespace Command

/-- The command of options given to `agent start`. -/
def startOf (args : List String) : Except Usage Command := do
  let given ← readOptions [("scripts-dir", .single), ("var", .collected),
    ("visible-indexing", .flag), ("state-out", .single)] [] args
  let scripts ← given.required "scripts-dir"
  let stateOut ← given.required "state-out"
  .ok (.start scripts (given.all "var") (given.has "visible-indexing") stateOut)

/-- The command of options given to `agent choose`. -/
def chooseOf (args : List String) : Except Usage Command := do
  let given ← readOptions [("state-in", .single), ("choice", .index), ("state-out", .single)]
    [] args
  let stateIn ← given.required "state-in"
  let choice ← given.required "choice"
  let stateOut ← given.required "state-out"
  .ok (.choose stateIn ((index? choice).getD 0) stateOut)

/-- The command of options given to `tui`. -/
def playOf (args : List String) : Except Usage Command := do
  let given ← readOptions [("scripts-dir", .single), ("state-file", .single),
    ("var", .collected), ("line", .flag)] [] args
  let scripts ← given.required "scripts-dir"
  .ok (.play scripts (given.lookup "state-file") (given.all "var") (given.has "line"))

/-- The command of options given to `check`. -/
def checkOf (args : List String) : Except Usage Command := do
  let given ← readOptions [("scripts-dir", .single), ("strict", .flag)] [] args
  let scripts ← given.required "scripts-dir"
  .ok (.check scripts (given.has "strict"))

/-- The command of options given to `dump`. -/
def dumpOf (args : List String) : Except Usage Command := do
  let given ← readOptions [("scripts-dir", .single)] [] args
  .ok (.dump (← given.required "scripts-dir"))

/-- A word that stands in the place of a command but is none: a request for help or a mistake. -/
def noCommand (arg : String) : Usage :=
  if arg = "--help" ∨ asksHelp arg then .help else .mistake

/-- What `help` is asked about: nothing, or the words of a command. -/
def helpOn (topics : List (List String)) (words : List String) : Usage :=
  if words = [] ∨ words ∈ topics then .help else .mistake

/-- The command after the word `agent`. -/
def agentOf : List String → Except Usage Command
  | "start" :: rest => startOf rest
  | "choose" :: rest => chooseOf rest
  | "help" :: rest => .error (helpOn [["start"], ["choose"], ["help"]] rest)
  | arg :: _ => .error (noCommand arg)
  | [] => .error .mistake

/-- The command that arguments stand for. -/
def ofArguments : List String → Except Usage Command
  | "agent" :: rest => agentOf rest
  | "tui" :: rest => playOf rest
  | "check" :: rest => checkOf rest
  | "dump" :: rest => dumpOf rest
  | "help" :: rest => .error (helpOn [["agent"], ["agent", "start"], ["agent", "choose"],
      ["tui"], ["check"], ["dump"], ["help"]] rest)
  | arg :: _ => .error (noCommand arg)
  | [] => .error .mistake

end Command

end Colloquy
