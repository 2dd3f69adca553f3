import Colloquy.Proofs.Builtin
import Colloquy.Proofs.Evaluation.Fault
import Colloquy.Sandbox

/-!
# What the sandbox does

A call of `move` shifts the pawn and gives none, or is refused and leaves the sandbox alone
(`moved`). Absorbing changes numbers of variables only, or is refused and leaves the sandbox alone
(`absorbed`). Both look at the kinds of what they are given and at the names of the variables, so
two sandboxes with variables of the same names run code side by side (`simulation`), wherever
their pawns are. Beside the causes of evaluation, a sandbox fails with faults of its own only
(`raises`, `absorb_failsIn`).
-/

namespace Colloquy.Sandbox

open Colloquy.Action (InStep FailsIn)

/-! ## Moving the pawn -/

/-- A call of `move` shifts the pawn, or is refused and shifts nothing. -/
inductive Moved (args : List (Value Function)) (s : State) :
    Except Fault (Value Function) × State → Prop
  | shifted {dx dy dz : Float} (hargs : moveArguments args = .ok (pawnHandle, dx, dy, dz)) :
      Moved args s (.ok .none, { s with pawn := s.pawn.shift dx dy dz })
  | refused (fault : Fault) : Moved args s (.error fault, s)

theorem moved (args : List (Value Function)) (s : State) :
    Moved args s ((host.call .move args).result s) := by
  show Moved args s ((call .move args).result s)
  unfold call
  dsimp only
  rcases hargs : moveArguments args with fault | ⟨handle, dx, dy, dz⟩
  · exact .refused fault
  · rw [Action.result_bind_of_ok (Action.result_ofExcept _ s)]
    by_cases hpawn : handle = pawnHandle
    · simp only [hpawn, if_true]
      exact .shifted (by rw [hargs, hpawn])
    · simp only [hpawn, if_false]
      exact .refused _

/-- Of its arguments `move` looks at the kinds and the handle. -/
theorem moveArguments_of_related {N : Float → Float → Prop} {κ : Type} {xs ys : List (Value κ)}
    (h : List.Forall₂ (Value.Related N) xs ys) :
    Agree (fun a b => a.1 = b.1) (moveArguments xs) (moveArguments ys) := by
  rcases h with _ | ⟨htarget, _ | ⟨hx, _ | ⟨hy, _ | ⟨hz, _ | _⟩⟩⟩⟩
  case cons.cons.cons.cons.nil =>
    refine Agree.mapError _ ?_
    refine (htarget.expectHandle "move").bind fun handle handle' hhandle => ?_
    refine (hx.expectNumber "move").bind fun _ _ _ => ?_
    refine (hy.expectNumber "move").bind fun _ _ _ => ?_
    refine (hz.expectNumber "move").bind fun _ _ _ => ?_
    exact .ok hhandle
  -- any other number of arguments
  all_goals exact .error _

/-- Two sandboxes move alike, as far as their pawns do not matter. -/
theorem call_inStep {N : Float → Float → Prop} {S : State → State → Prop}
    (hpawns : ∀ s t p q, S s t → S { s with pawn := p } { t with pawn := q }) (f : Function)
    {xs ys : List (Value Function)} (h : List.Forall₂ (Value.Related N) xs ys) :
    InStep S (Value.Related N) (call f xs) (call f ys) := by
  cases f
  refine (InStep.ofExcept (moveArguments_of_related h)).bind ?_
  rintro ⟨handle, dx, dy, dz⟩ ⟨handle', dx', dy', dz'⟩ hhandle
  obtain rfl : handle = handle' := hhandle
  by_cases hpawn : handle = pawnHandle
  · simp only [hpawn, if_true]
    exact fun s t hS => ⟨.ok .none, hpawns s t _ _ hS⟩
  · simp only [hpawn, if_false]
    exact .throw _

/-! ## Seeding -/

/-- The variables of both sandboxes have the same names, and numbers related by `N`. -/
def VarsRelated (N : Float → Float → Prop) (s t : State) : Prop :=
  List.Forall₂ (fun v w => v.1 = w.1 ∧ N v.2 w.2) s.vars.entries t.vars.entries

theorem varsRelated_of_names {s t : State} (h : s.vars.names = t.vars.names) :
    VarsRelated (fun _ _ => True) s t := by
  have hnames : List.Forall₂ (· = ·) s.vars.names t.vars.names := by
    rw [h]
    exact List.forall₂_same.mpr fun _ _ => rfl
  unfold NameMap.names at hnames
  rw [List.forall₂_map_left_iff, List.forall₂_map_right_iff] at hnames
  exact hnames.imp fun _ _ hname => ⟨hname, trivial⟩

theorem varsRelated_of_eq {s t : State} (h : s.vars = t.vars) : VarsRelated (· = ·) s t := by
  unfold VarsRelated
  rw [h]
  exact List.forall₂_same.mpr fun _ _ => ⟨rfl, rfl⟩

/-- Turns start from related bindings. -/
theorem seed_of_related {N : Float → Float → Prop} (hN : ∀ x, N x x) {s t : State}
    (h : VarsRelated N s t) (bindings : Bindings Function) :
    NameMap.Related (Value.Related N) (seed s bindings) (seed t bindings) := by
  have hvars : List.Forall₂
      (fun v w : String × Value Function => v.1 = w.1 ∧ Value.Related N v.2 w.2)
      (s.vars.entries.map fun v => (v.1, .number v.2))
      (t.vars.entries.map fun v => (v.1, .number v.2)) := by
    rw [List.forall₂_map_left_iff, List.forall₂_map_right_iff]
    exact h.imp fun v w hentry => ⟨hentry.1, .number hentry.2⟩
  have hsame : NameMap.Related (Value.Related N) bindings bindings :=
    NameMap.Related.refl (Value.Related.refl hN) bindings
  unfold seed
  exact ((NameMap.Related.insertAll hvars hsame).insert _ (.handle _)).insert _ (.function _)

section Simulation

variable {N : Float → Float → Prop} (hN : ∀ x, N x x)
  (hbuiltin : ∀ (b : Builtin) {xs ys : List (Value Function)},
    List.Forall₂ (Value.Related N) xs ys → Agree (Value.Related N) (b.apply xs) (b.apply ys))

include hN hbuiltin

/-- Sandboxes run code side by side wherever their pawns are, if the builtins respect `N`. -/
theorem codeSimulation {S : State → State → Prop}
    (hpawns : ∀ s t p q, S s t → S { s with pawn := p } { t with pawn := q }) :
    CodeSimulation N S host host where
  literal := hN
  builtin := hbuiltin
  signature _ := rfl
  call f _ _ hargs := call_inStep hpawns f hargs

/-- Sandboxes with related variables play turns side by side. -/
theorem simulation : Simulation N (VarsRelated N) host host :=
  { codeSimulation hN hbuiltin fun _ _ _ _ hS => hS with
    seed := fun hS => .ok (seed_of_related hN hS _) }

end Simulation

/-! ## Absorbing -/

/-- An absorbing gives variables new numbers, or is refused and changes nothing. -/
inductive Absorbed (bindings : Bindings Function) (s : State) : Except Fault Unit × State → Prop
  | updated {changes : List (String × Float)}
      (hupdates : updates bindings s.vars.entries = .ok changes) :
      Absorbed bindings s (.ok (), s.withVars changes)
  | refused {fault : Fault} (hupdates : updates bindings s.vars.entries = .error fault) :
      Absorbed bindings s (.error fault, s)

theorem absorbed (bindings : Bindings Function) (s : State) :
    Absorbed bindings s ((host.absorb bindings).result s) := by
  show Absorbed bindings s ((absorb bindings).result s)
  unfold absorb
  rw [Action.result_bind_of_ok (Action.result_get s)]
  rcases hupdates : updates bindings s.vars.entries with fault | changes
  · exact .refused hupdates
  · exact .updated hupdates

/-- Only variables are updated. -/
theorem mem_of_updates {bindings : Bindings Function} :
    ∀ {vars changes : List (String × Float)}, updates bindings vars = .ok changes →
      ∀ e ∈ changes, e.1 ∈ vars.map (·.1)
  | [], _, h, e, he => by
    cases h
    cases he
  | (name, old) :: rest, changes, h, e, he => by
    rw [List.map_cons]
    unfold updates at h
    split at h
    · obtain ⟨others, hrest, rfl⟩ := map_eq_ok.mp h
      rcases List.mem_cons.mp he with rfl | he
      · exact List.mem_cons_self ..
      · exact List.mem_cons_of_mem _ (mem_of_updates hrest e he)
    · cases h
    · exact List.mem_cons_of_mem _ (mem_of_updates h e he)

/-- Absorbing leaves the pawn and the names of the variables as they were. -/
theorem names_of_absorbed {bindings : Bindings Function} {s s' : State}
    (h : (host.absorb bindings).result s = (.ok (), s')) :
    s'.pawn = s.pawn ∧ s'.vars.names = s.vars.names := by
  have habsorbed := absorbed bindings s
  rw [h] at habsorbed
  cases habsorbed with
  | updated hupdates => exact ⟨rfl, NameMap.names_insertAll (mem_of_updates hupdates)⟩

theorem eq_of_absorb_error {bindings : Bindings Function} {s s' : State} {fault : Fault}
    (h : (host.absorb bindings).result s = (.error fault, s')) : s' = s := by
  have habsorbed := absorbed bindings s
  rw [h] at habsorbed
  cases habsorbed with
  | refused => rfl

/-! ## Faults -/

/-- The codes of the faults that are the sandbox's own. -/
def faultCodes : List String := ["SANDBOX_MOVE_ARGS", "SANDBOX_UNKNOWN_HANDLE", "SANDBOX_VAR_TYPE"]

section Faults

variable {P : Fault → Prop} (hevaluation : ∀ cause, P (.evaluation cause))
  (hhost : ∀ code ∈ faultCodes, ∀ message, P (.host code message))

include hevaluation hhost

theorem fault_of_moveArguments {κ : Type} {args : List (Value κ)} {fault : Fault}
    (hfail : moveArguments args = .error fault) : P fault := by
  unfold moveArguments at hfail
  split at hfail
  · -- the arguments are of a wrong kind
    rename_i target dx dy dz
    generalize hread : (do
      let handle ← target.expectHandle "move"
      let dx ← dx.expectNumber "move"
      let dy ← dy.expectNumber "move"
      let dz ← dz.expectNumber "move"
      .ok (handle, dx, dy, dz) : Except EvaluationFault (Nat × Float × Float × Float)) = r at hfail
    cases r with
    | ok arguments => cases hfail
    | error cause =>
      cases hfail
      exact hevaluation cause
  · cases hfail
    exact hhost _ (by simp [faultCodes]) _

/-- Code in a sandbox fails for a cause of evaluation, or with a fault of the sandbox's own. -/
theorem raises : host.Raises P where
  evaluation := hevaluation
  call := by
    rintro ⟨⟩ args
    refine FailsIn.bind
      (.ofExcept fun fault hfail => fault_of_moveArguments hevaluation hhost hfail) ?_
    rintro ⟨handle, dx, dy, dz⟩
    dsimp only
    split
    · intro s fault s' hfail
      cases hfail
    · exact .throw (hhost _ (by simp [faultCodes]) _)
  seed s fault hseed := by cases hseed

omit hevaluation in
theorem fault_of_updates {bindings : Bindings Function} :
    ∀ {vars : List (String × Float)} {fault : Fault}, updates bindings vars = .error fault → P fault
  | [], fault, hfail => by cases hfail
  | (name, x) :: rest, fault, hfail => by
    unfold updates at hfail
    split at hfail
    · cases hrest : updates bindings rest with
      | ok changes =>
        rw [hrest] at hfail
        cases hfail
      | error cause =>
        rw [hrest] at hfail
        cases hfail
        exact fault_of_updates hrest
    · cases hfail
      exact hhost _ (by simp [faultCodes]) _
    · exact fault_of_updates hfail

omit hevaluation in
theorem absorb_failsIn (bindings : Bindings Function) : FailsIn P (host.absorb bindings) := by
  refine FailsIn.get.bind fun s => ?_
  exact (FailsIn.ofExcept fun fault hfail => fault_of_updates hhost hfail).bind fun _ => .set _

end Faults

end Colloquy.Sandbox
