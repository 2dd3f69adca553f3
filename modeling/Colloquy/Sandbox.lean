import Colloquy.Host

/-!
# The sandbox

The sandbox is a host with one pawn in space and numeric variables. Scripts see the variables by
name, the pawn as the handle `self-pawn`, and the function `move`, which shifts the pawn at once.
At the end of a turn every variable takes the number bound to its name; if any of them is bound to
something else, the turn is refused and no variable changes.
-/

namespace Colloquy.Sandbox

/-- A point in space. -/
structure Point where
  x : Float
  y : Float
  z : Float
deriving DecidableEq

namespace Point

/-- The point at zero. -/
def origin : Point := ⟨0, 0, 0⟩

/-- The point shifted by the given offsets. -/
def shift (p : Point) (dx dy dz : Float) : Point := ⟨p.x + dx, p.y + dy, p.z + dz⟩

/-- Whether two points are alike, coordinates compared as numbers. -/
def same (p q : Point) : Bool := p.x == q.x && p.y == q.y && p.z == q.z

/-- The coordinates in parentheses. -/
def text (p : Point) : String := s!"({Number.text p.x}, {Number.text p.y}, {Number.text p.z})"

end Point

/-- Where the pawn is and what the variables are. -/
structure State where
  pawn : Point
  vars : NameMap Float
deriving DecidableEq

namespace State

/-- The pawn at the origin and no variables. -/
def empty : State := ⟨.origin, .empty⟩

instance : Inhabited State := ⟨empty⟩

/-- The state with the given variables laid over its own. -/
def withVars (s : State) (vars : List (String × Float)) : State :=
  { s with vars := s.vars.insertAll vars }

end State

/-- The functions of the sandbox. -/
inductive Function
  | move
deriving DecidableEq, Repr

/-- The name that the pawn is bound to. -/
def pawnName : String := "self-pawn"

/-- The handle of the pawn. -/
def pawnHandle : Nat := 1

/-- Name and arity of the functions. -/
def signature : Function → Signature
  | .move => ⟨"move", .exactly 4⟩

/-- The handle and the three offsets that `move` is called with. -/
def moveArguments {κ : Type} : List (Value κ) → Except Fault (Nat × Float × Float × Float)
  | [target, dx, dy, dz] => Except.mapError .evaluation do
    let handle ← target.expectHandle "move"
    let dx ← dx.expectNumber "move"
    let dy ← dy.expectNumber "move"
    let dz ← dz.expectNumber "move"
    .ok (handle, dx, dy, dz)
  | _ => .error (.host "SANDBOX_MOVE_ARGS" "move expects a pawn and three offsets.")

/-- The fault of a handle that is no pawn's. -/
def unknownHandle (handle : Nat) : Fault :=
  .host "SANDBOX_UNKNOWN_HANDLE" s!"Handle {handle} does not name a pawn."

/-- Runs a function. -/
def call : Function → List (Value Function) → Action State (Value Function)
  | .move, args => do
    let (handle, dx, dy, dz) ← Action.ofExcept (moveArguments args)
    if handle = pawnHandle then
      modify fun s => { s with pawn := s.pawn.shift dx dy dz }
      pure .none
    else throw (unknownHandle handle)

/-- Binds the variables, and over them the pawn and the functions. -/
def seed (s : State) (bindings : Bindings Function) : Bindings Function :=
  let withVars := bindings.insertAll (s.vars.entries.map fun v => (v.1, .number v.2))
  (withVars.insert pawnName (.handle pawnHandle)).insert (signature .move).name
    (.function (.own .move))

/-- The numbers bound to the names of the variables, in the order of the names. -/
def updates (bindings : Bindings Function) :
    List (String × Float) → Except Fault (List (String × Float))
  | [] => .ok []
  | (name, _) :: rest =>
    match bindings.find? name with
    | some (.number next) => (updates bindings rest).map ((name, next) :: ·)
    | some other => .error (.host "SANDBOX_VAR_TYPE"
        s!"Variable \"{name}\" must stay a number, got {other.kindName}.")
    | none => updates bindings rest

/-- Takes the bindings of a turn back. -/
def absorb (bindings : Bindings Function) : Action State Unit := do
  let s ← get
  let changes ← Action.ofExcept (updates bindings s.vars.entries)
  set (s.withVars changes)

/-- The sandbox as a host. -/
def host : Host Function State where
  signature := signature
  call := call
  seed s bindings := .ok (seed s bindings)
  absorb := absorb

end Colloquy.Sandbox
