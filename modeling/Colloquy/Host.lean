import Colloquy.Action
import Colloquy.Builtin
import Colloquy.NameMap

/-!
# Hosts

A host owns the state that a dialogue reads and changes. It names functions of its own, binds
variables for a turn (`seed`), runs its functions (`call`) and takes the bindings of a finished
turn back (`absorb`). Any of these may fail. A call can change the state whether or not it fails,
and so can `absorb`; `seed` only reads.
-/

namespace Colloquy

/-- What the names of a turn stand for. -/
abbrev Bindings (κ : Type) := NameMap (Value κ)

/-- The bindings that every turn starts from: the builtins by name. -/
def Bindings.builtins {κ : Type} : Bindings κ :=
  NameMap.ofList (Builtin.all.map fun b => (b.name, .function (.builtin b)))

/-- A host with functions named by `κ` and states in `σ`. -/
structure Host (κ σ : Type) where
  signature : κ → Signature
  /-- Runs a function on arguments of an allowed number. -/
  call : κ → List (Value κ) → Action σ (Value κ)
  /-- Adds the host's bindings for a turn. -/
  seed : σ → Bindings κ → Except Fault (Bindings κ)
  /-- Takes the final bindings of a turn back. -/
  absorb : Bindings κ → Action σ Unit

namespace Host

variable {κ σ : Type}

/-- The host without functions, variables or state. -/
def bare : Host Empty Unit where
  signature := nofun
  call := nofun
  seed _ bindings := .ok bindings
  absorb _ := pure ()

/-- Name and arity of a function. -/
def signatureOf (h : Host κ σ) : Native κ → Signature
  | .builtin b => b.signature
  | .own f => h.signature f

/-- Runs a function, without looking at the number of its arguments. -/
def run (h : Host κ σ) (f : Native κ) (args : List (Value κ)) : Action σ (Value κ) :=
  match f with
  | .builtin b => .ofExcept ((b.apply args).mapError .evaluation)
  | .own f => h.call f args

/-- Refuses a number of arguments that a function does not take. -/
def checkCount (h : Host κ σ) (f : Native κ) (count : Nat) : Except Fault Unit :=
  let s := h.signatureOf f
  if s.arity.accepts count then .ok ()
  else .error (.evaluation (.wrongCount s.name s.arity.text count))

/-- Calls a function, first looking at the number of its arguments. -/
def apply (h : Host κ σ) (f : Native κ) (args : List (Value κ)) : Action σ (Value κ) := do
  Action.ofExcept (h.checkCount f args.length)
  h.run f args

theorem checkCount_of_accepts {h : Host κ σ} {f : Native κ} {count : Nat}
    (haccepts : (h.signatureOf f).arity.accepts count = true) : h.checkCount f count = .ok () :=
  if_pos haccepts

/-- With a number of arguments that it takes a function is just run. -/
theorem apply_of_accepts {h : Host κ σ} {f : Native κ} {args : List (Value κ)}
    (haccepts : (h.signatureOf f).arity.accepts args.length = true) :
    h.apply f args = h.run f args := by
  unfold apply
  rw [checkCount_of_accepts haccepts]
  rfl

/-- The bindings that a turn starts with. -/
def turnBindings (h : Host κ σ) (state : σ) : Except Fault (Bindings κ) :=
  h.seed state Bindings.builtins

end Host

end Colloquy
