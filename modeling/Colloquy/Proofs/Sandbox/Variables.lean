import Colloquy.Proofs.Playthrough.Frame
import Colloquy.Proofs.Sandbox.Fresh

/-!
# What changes the variables of a sandbox

A variable can only take another number by an assignment to its name in the code of the dialogue.
Main statement: `variables_change_by_assignment`, of any run from any game, with the law of evaluation
that it rests on.

Code itself leaves the variables alone (`keeps_vars`); they change when a turn is absorbed. Absorbing
takes the numbers bound to the names of the variables, so a variable that is no target gets the
number that was seeded for it, which is its own (`changesOnly_absorbed`). The pawn and the function
of the sandbox are bound over variables of the same names; these are no numbers, so such a turn is
refused.
-/

namespace Colloquy.Sandbox

open NameMap (ChangesOnly)
open Playthrough (build leave)

/-! ## Absorbing -/

/-- A number that a turn starts with under the name of a variable is the number of the variable. -/
theorem find?_of_seed {s : State} {bindings : Bindings Function} {name : String} {x : Float}
    (hname : name ∈ s.vars.names) (hseed : (seed s bindings).find? name = some (.number x)) :
    s.vars.find? name = some x := by
  obtain ⟨y, hy⟩ := Option.isSome_iff_exists.mp (NameMap.mem_names_iff.mp hname)
  unfold seed at hseed
  rw [NameMap.find?_insert] at hseed
  split at hseed
  · cases hseed
  rw [NameMap.find?_insert] at hseed
  split at hseed
  · cases hseed
  -- neither the function nor the pawn hides the variable
  have hvars := NameMap.find?_mapValues (fun _ x => (.number x : Value Function)) s.vars name
  have hseeded : (bindings.insertAll
      (s.vars.mapValues fun _ x => (.number x : Value Function)).entries).find? name = _ :=
    NameMap.find?_insertAll (s.vars.mapValues fun _ x => (.number x : Value Function)).ascending
  unfold NameMap.find? at hvars
  rw [hvars, show List.lookup name s.vars.entries = some y from hy] at hseeded
  have hnumber : some (Value.number y) = some (.number x) := hseeded.symm.trans hseed
  cases hnumber
  exact hy

/-- Updates are numbers that are bound to their names. -/
theorem find?_of_updates {bindings : Bindings Function} :
    ∀ {vars changes : List (String × Float)}, updates bindings vars = .ok changes →
      ∀ e ∈ changes, bindings.find? e.1 = some (.number e.2)
  | [], changes, h, e, he => by
    cases h
    cases he
  | (name, old) :: rest, changes, h, e, he => by
    unfold updates at h
    split at h
    · next number hnumber =>
      obtain ⟨others, hrest, rfl⟩ := map_eq_ok.mp h
      rcases List.mem_cons.mp he with rfl | he
      · exact hnumber
      · exact find?_of_updates hrest e he
    · cases h
    · exact find?_of_updates h e he

/-- Absorbing what a turn has left changes the variables that the turn has rebound. -/
theorem changesOnly_of_absorb {names : List String} {s before after : State}
    {seeded bindings : Bindings Function} (hseeded : host.turnBindings s = .ok seeded)
    (hchanges : ChangesOnly names seeded bindings) (hvars : before.vars = s.vars)
    (habsorb : (host.absorb bindings).result before = (.ok (), after)) :
    ChangesOnly names s.vars after.vars := by
  have habsorbed := absorbed bindings before
  rw [habsorb] at habsorbed
  cases habsorbed with
  | @updated updates hupdates =>
    obtain rfl : seed s Bindings.builtins = seeded := Except.ok.inj hseeded
    have hbound := mem_of_updates hupdates
    rw [← hvars]
    refine .insertAll hbound ?_
    intro e he hname
    have hfind := find?_of_updates hupdates e he
    rw [hchanges.find? e.1 hname] at hfind
    rw [hvars]
    refine find?_of_seed ?_ hfind
    rw [← hvars]
    exact hbound e he

/-! ## Operations -/

theorem vars_of_leave {p : Playthrough} {view : View} {label : Label} {index : Nat} {s s' : State}
    {answer : Except Fault (Playthrough.Transition Function)}
    (hleave : (leave host p view label index).result s = (answer, s')) : s'.vars = s.vars := by
  have hvars := (keeps_vars s.vars).leave p view label index rfl
  rw [hleave] at hvars
  exact hvars

theorem vars_of_build {d : Dialogue} {name : String} {s s' : State} {answer : Except Fault View}
    (hbuild : (build host d name).result s = (answer, s')) : s'.vars = s.vars := by
  have hvars := (keeps_vars s.vars).build d name rfl
  rw [hbuild] at hvars
  exact hvars

/-- What a turn at a label hands over changes only targets of the dialogue's code when absorbed. -/
theorem changesOnly_of_turn {game : Game State} {view : View} {label : Label} {index : Nat}
    {transition : Playthrough.Transition Function} {bindings : Bindings Function}
    {s before after : State} (here : game.At view label)
    (hleave : (leave host game.play view label index).result game.host = (.ok transition, s))
    (hbindings : transition.bindings? = some bindings) (hvars : before.vars = s.vars)
    (habsorb : (host.absorb bindings).result before = (.ok (), after)) :
    ChangesOnly game.play.dialogue.writes game.host.vars after.vars := by
  obtain ⟨seeded, hseeded, hchanges⟩ := Playthrough.changesOnly_of_leave hleave hbindings
  have hlabel := Dialogue.writesAll_subset (Playthrough.resolve_eq_ok.mp here.declared)
  have hsame : before.vars = game.host.vars := hvars.trans (vars_of_leave hleave)
  exact changesOnly_of_absorb hseeded (hchanges.mono hlabel) hsame habsorb

/-- A submission that goes well keeps the dialogue and changes only targets of its code. -/
theorem changesOnly_of_submission {index : Nat} {game after : Game State} {outcome : Outcome}
    (hsubmission : Game.Submission host index game (.ok outcome, after)) :
    after.play.dialogue = game.play.dialogue ∧
      ChangesOnly game.play.dialogue.writes game.host.vars after.host.vars := by
  cases hsubmission with
  | @stayed view label s here hleave =>
    refine ⟨rfl, ?_⟩
    show ChangesOnly _ game.host.vars s.vars
    rw [vars_of_leave hleave]
    exact .refl _ _
  | @entered view label target bindings staged answer _ _ _ s here hleave hbuild habsorb hrebuild =>
    refine ⟨rfl, ?_⟩
    show ChangesOnly _ game.host.vars s.vars
    rw [vars_of_build hrebuild]
    exact changesOnly_of_turn here hleave rfl (vars_of_build hbuild) habsorb
  | @closed view label s here hleave =>
    refine ⟨rfl, ?_⟩
    show ChangesOnly _ game.host.vars s.vars
    rw [vars_of_leave hleave]
    exact .refl _ _
  | finished here hleave habsorb => exact ⟨rfl, changesOnly_of_turn here hleave rfl rfl habsorb⟩

/-- An operation keeps the dialogue and changes only targets of its code, whether it fails or not. -/
theorem changesOnly_act (operation : Operation) (game : Game State) :
    ((Game.act host operation).result game).2.play.dialogue = game.play.dialogue ∧
      ChangesOnly game.play.dialogue.writes game.host.vars
        ((Game.act host operation).result game).2.host.vars := by
  rcases hact : (Game.act host operation).result game with ⟨fault | outcome, after⟩
  · -- a failed operation may have moved the pawn and nothing else
    obtain ⟨hplay, hvars⟩ := (keeps_vars game.host.vars).act_of_error
      (fun _ _ _ _ hkept hfail => by rw [eq_of_absorb_error hfail]; exact hkept) rfl hact
    refine ⟨by rw [hplay], ?_⟩
    rw [hvars]
    exact .refl _ _
  · have hstep := Game.step host operation game
    rw [hact] at hstep
    generalize hanswer : (Except.ok outcome : Except Fault (Option Outcome)) = answer at hstep
    cases hstep with
    | @submitted index result _ hsubmission =>
      cases result with
      | error fault => cases hanswer
      | ok outcome => exact changesOnly_of_submission hsubmission
    | refused => cases hanswer
    | unbuilt => cases hanswer
    | ended => exact ⟨rfl, .refl _ _⟩
    | @shown _ indexing name view s hbuild =>
      refine ⟨rfl, ?_⟩
      show ChangesOnly _ game.host.vars s.vars
      rw [vars_of_build hbuild]
      exact .refl _ _

/-- A run keeps the dialogue and changes only targets of its code. -/
theorem changesOnly_run (operations : List Operation) (game : Game State) :
    (Game.run host operations game).play.dialogue = game.play.dialogue ∧
      ChangesOnly game.play.dialogue.writes game.host.vars
        (Game.run host operations game).host.vars := by
  refine Game.run_induction
    (P := fun after : Game State => after.play.dialogue = game.play.dialogue ∧
      ChangesOnly game.play.dialogue.writes game.host.vars after.host.vars)
    ?_ operations ⟨rfl, .refl _ _⟩
  intro operation before ⟨hdialogue, hchanges⟩
  obtain ⟨hkept, hstep⟩ := changesOnly_act operation before
  rw [hdialogue] at hkept hstep
  exact ⟨hkept, hchanges.trans hstep⟩

/-- **Variables are only what assignments make of them.** Whatever is done to a game, the sandbox has
variables of the same names after it, and one that no assignment in the code of the dialogue names has
the number that it had. The same holds of the bindings of every turn on every host: evaluating an
expression, whether it fails or not, neither binds nor unbinds a name, and leaves every name that is
no target of an assignment in it bound to what it was. -/
theorem variables_change_by_assignment :
    (∀ (operations : List Operation) (game : Game State),
      let after := Game.run host operations game
      after.host.vars.names = game.host.vars.names ∧
        ∀ name, name ∉ game.play.dialogue.writes →
          after.host.vars.find? name = game.host.vars.find? name) ∧
    ∀ (κ σ : Type) (h : Host κ σ) (e : Expr) (state : TurnState κ σ),
      let after := ((Turn.evaluate h e).result state).2
      after.bindings.names = state.bindings.names ∧
        ∀ name, name ∉ e.writes → after.bindings.find? name = state.bindings.find? name := by
  constructor
  · intro operations game after
    obtain ⟨-, hchanges⟩ := changesOnly_run operations game
    exact ⟨hchanges.names, hchanges.find?⟩
  · intro κ σ h e state after
    have hchanges := Turn.evaluate_frames h e state
    exact ⟨hchanges.names, hchanges.find?⟩

/-- Passing the toll gate and waiting at it takes coins, and never a key. -/
theorem variables_change_by_assignment_toll :
    ∃ d, compileForms tollForms = .ok d ∧
      let game := Game.run host [.start .declared, .submit 0, .submit 1]
        ⟨⟨d, .declared, none⟩, ⟨.origin, .ofList [("coins", 2), ("keys", 3)]⟩⟩
      game.host.vars.find? "coins" = some 1 ∧ game.host.vars.find? "keys" = some 3 := by
  have hcompiled : compileForms tollForms = .ok ⟨"gate", .ofList [("gate", ⟨"gate", "The gate.",
      some [⟨"Pay", "gate", some (.list [.symbol "set*", .symbol "coins",
        .list [.symbol "-", .symbol "coins", .number 1]])⟩, ⟨"Wait", "gate", none⟩], none⟩)]⟩ := rfl
  refine ⟨_, hcompiled, ?_⟩
  intro game
  have hcoins : game.host.vars.find? "coins" = some 1 := by decide +kernel
  obtain ⟨hrun, -⟩ := variables_change_by_assignment
  obtain ⟨-, hkept⟩ := hrun [.start .declared, .submit 0, .submit 1]
    ⟨⟨_, .declared, none⟩, ⟨.origin, .ofList [("coins", 2), ("keys", 3)]⟩⟩
  exact ⟨hcoins, hkept "keys" (by decide)⟩

end Colloquy.Sandbox
