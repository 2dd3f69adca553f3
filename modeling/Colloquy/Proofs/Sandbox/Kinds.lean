import Colloquy.Proofs.Playthrough.Simulation
import Colloquy.Proofs.Sandbox.Host

/-!
# Failing is a matter of kinds

Whether code fails in a sandbox, and with which fault, depends on the kinds of the values it works
with and not on the numbers among them. Main statement: `failure_independent_of_numbers`, of
expressions on any bindings alike in kind, and of going to a label in sandboxes whose variables
have the same names.

This is what makes it safe to build a label before its turn is absorbed: absorbing only changes
numbers, so a label that was built once is built again.
-/

namespace Colloquy.Sandbox

open Playthrough (build)

/-- The bindings bind the same names, to values of the same kinds. -/
abbrev SameKinds : Bindings Function → Bindings Function → Prop := NameMap.Related Value.SameKind

/-- Sandboxes with variables of the same names play turns that fail alike. -/
theorem kindSimulation :
    Simulation (fun _ _ => True) (VarsRelated fun _ _ => True) host host :=
  simulation (fun _ => trivial) Builtin.apply_of_sameKind

/-- An expression fails alike on bindings of the same kinds, wherever the pawns are. -/
theorem evaluate_of_sameKinds (e : Expr) {a b : TurnState Function State}
    (h : SameKinds a.bindings b.bindings) :
    Agree Value.SameKind ((Turn.evaluate host e).result a).1 ((Turn.evaluate host e).result b).1 ∧
      SameKinds ((Turn.evaluate host e).result a).2.bindings
        ((Turn.evaluate host e).result b).2.bindings := by
  have hcode : CodeSimulation (fun _ _ => True) (fun _ _ => True) host host :=
    codeSimulation (fun _ => trivial) Builtin.apply_of_sameKind fun _ _ _ _ _ => trivial
  obtain ⟨hvalues, hstates⟩ := hcode.evaluate e a b ⟨h, trivial⟩
  exact ⟨hvalues, hstates.bindings⟩

/-- A label is built in one sandbox exactly when it is in another with the same variables. -/
theorem build_of_names {s t : State} (hnames : s.vars.names = t.vars.names) (d : Dialogue)
    (name : String) :
    (∃ v w s' t', (build host d name).result s = (.ok v, s') ∧
        (build host d name).result t = (.ok w, t')) ∨
      ∃ fault s' t', (build host d name).result s = (.error fault, s') ∧
        (build host d name).result t = (.error fault, t') := by
  have hbuild := kindSimulation.build d name
  rcases hbuild.ok_or_error (varsRelated_of_names hnames) with
    ⟨v, w, s', t', hs, ht, -, -⟩ | ⟨fault, s', t', hs, ht, -⟩
  · exact Or.inl ⟨v, w, s', t', hs, ht⟩
  · exact Or.inr ⟨fault, s', t', hs, ht⟩

theorem enter_of_names {s t : State} (hnames : s.vars.names = t.vars.names) {p q : Playthrough}
    (hdialogue : p.dialogue = q.dialogue) (name : String) :
    ((Game.enter host name).result ⟨p, s⟩).1 = ((Game.enter host name).result ⟨q, t⟩).1 := by
  rcases build_of_names hnames p.dialogue name with
    ⟨v, w, s', t', hs, ht⟩ | ⟨fault, s', t', hs, ht⟩
  · rw [hdialogue] at ht
    have hp : (Game.enter host name).result ⟨p, s⟩ = (.ok (), _) := Game.result_enter_of_ok hs
    have hq : (Game.enter host name).result ⟨q, t⟩ = (.ok (), _) := Game.result_enter_of_ok ht
    rw [hp, hq]
  · rw [hdialogue] at ht
    have hp : (Game.enter host name).result ⟨p, s⟩ = (.error fault, _) :=
      Game.result_enter_of_error hs
    have hq : (Game.enter host name).result ⟨q, t⟩ = (.error fault, _) :=
      Game.result_enter_of_error ht
    rw [hp, hq]

/-- **Whether code fails does not depend on the numbers it runs on.** On bindings of the same
kinds an expression fails with the same fault or has values of the same kind, and leaves bindings
of the same kinds. Sandboxes with variables of the same names seed such bindings, and every label
is entered in both or refused in both for the same fault. -/
theorem failure_independent_of_numbers :
    (∀ (e : Expr) (a b : TurnState Function State), SameKinds a.bindings b.bindings →
      Agree Value.SameKind ((Turn.evaluate host e).result a).1 ((Turn.evaluate host e).result b).1 ∧
        SameKinds ((Turn.evaluate host e).result a).2.bindings
          ((Turn.evaluate host e).result b).2.bindings) ∧
    ∀ s t : State, s.vars.names = t.vars.names →
      (∃ b c, host.turnBindings s = .ok b ∧ host.turnBindings t = .ok c ∧ SameKinds b c) ∧
      ∀ (p q : Playthrough) (name : String), p.dialogue = q.dialogue →
        ((Game.enter host name).result ⟨p, s⟩).1 = ((Game.enter host name).result ⟨q, t⟩).1 := by
  refine ⟨fun e a b h => evaluate_of_sameKinds e h, fun s t hnames => ⟨?_, ?_⟩⟩
  · have hseed := seed_of_related (fun _ => trivial) (varsRelated_of_names hnames)
    exact ⟨_, _, rfl, rfl, hseed Bindings.builtins⟩
  · intro p q name hdialogue
    exact enter_of_names hnames hdialogue name

/-- In two sandboxes with a variable `hp` of different numbers, `(+ hp nothing)` fails alike on
what they seed, and so does going to a label that is not there. -/
theorem failure_independent_of_hp :
    let s : State := ⟨.origin, .ofList [("hp", 3)]⟩
    let t : State := ⟨⟨1, 0, 0⟩, .ofList [("hp", 0 / 0)]⟩
    let e : Expr := .list [.symbol "+", .symbol "hp", .symbol "nothing"]
    let p : Playthrough := ⟨⟨"start", .empty⟩, .declared, none⟩
    s.vars.names = t.vars.names ∧ SameKinds (seed s .builtins) (seed t .builtins) ∧
      Agree Value.SameKind ((Turn.evaluate host e).result ⟨seed s .builtins, s⟩).1
        ((Turn.evaluate host e).result ⟨seed t .builtins, t⟩).1 ∧
      ((Game.enter host "cave").result ⟨p, s⟩).1 = ((Game.enter host "cave").result ⟨p, t⟩).1 := by
  intro s t e p
  have hnames : s.vars.names = t.vars.names := rfl
  obtain ⟨hevaluate, hhosts⟩ := failure_independent_of_numbers
  obtain ⟨⟨b, c, hb, hc, hkinds⟩, henter⟩ := hhosts s t hnames
  cases hb
  cases hc
  exact ⟨hnames, hkinds, (hevaluate e _ _ hkinds).1, henter p p "cave" rfl⟩

end Colloquy.Sandbox
