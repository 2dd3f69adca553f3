import Colloquy.Proofs.Evaluation.Fault
import Colloquy.Proofs.Playthrough.Indexing
import Colloquy.Proofs.Sandbox.Fresh

/-!
# Every offered choice can be taken

What is shown at a label is what is open there now, so the index listed beside a choice stands for
that choice and the choice is still open when it is submitted. Main statement:
`offered_choices_can_be_taken`. An offered index is never refused as out of range nor ignored and
leads where its choice leads; any other index changes nothing; and players who take the same
positions see the same, whichever way their choices are counted.
-/

namespace Colloquy.Sandbox

open Colloquy.Action (FailsIn)
open Playthrough (build freshView openNow opens leave)

/-! ## What a submission can fail with -/

/-- Code in a sandbox never fails as a submission that should not have been made. -/
theorem raises_no_misuse : host.Raises fun fault => ¬ fault.IsMisuse :=
  raises Fault.not_isMisuse_evaluation fun _ _ => Fault.not_isMisuse_host _

theorem absorb_no_misuse (bindings : Bindings Function) :
    FailsIn (fun fault => ¬ fault.IsMisuse) (host.absorb bindings) :=
  absorb_failsIn (fun _ _ => Fault.not_isMisuse_host _) bindings

/-- What is current is as it ought to be. -/
theorem Current.fresh {game : Game State} (hcurrent : Current game) : Game.Fresh host game := by
  intro view hview
  obtain ⟨-, label, hlabel, hfresh⟩ := quiet.build (hcurrent view hview)
  exact ⟨label, ⟨hview, Playthrough.resolve_eq_ok.mpr hlabel⟩, hfresh⟩

section At

variable {game : Game State} {view : View} {label : Label} (here : game.At view label)

include here

/-- Once the label is left without such a fault, the rest of the submission has none either. -/
theorem submit_not_isMisuse {index : Nat}
    (hleave : FailsIn (fun fault => ¬ fault.IsMisuse) (leave host game.play view label index))
    {fault : Fault} {after : Game State}
    (hsubmit : (Game.submit host index).result game = (.error fault, after)) :
    ¬ fault.IsMisuse := by
  have hbuilds : ∀ name, FailsIn (fun fault => ¬ fault.IsMisuse) (build host game.play.dialogue name) :=
    fun name => raises_no_misuse.build (Or.inr (Fault.not_isMisuse_unknownLabel name))
  have hsubmission := Game.submission host index game
  rw [hsubmit] at hsubmission
  cases hsubmission with
  | ended hview =>
    rw [here.shown] at hview
    cases hview
  | lost hview hlabel =>
    obtain rfl := Option.some.inj (here.shown.symm.trans hview)
    rw [here.declared] at hlabel
    cases hlabel
  | refused here' hleft =>
    obtain ⟨rfl, rfl⟩ := here.unique here'
    exact hleave _ _ _ hleft
  | unbuilt here' hleft hbuild => exact hbuilds _ _ _ _ hbuild
  | unabsorbed here' hleft hbuild habsorb => exact absorb_no_misuse _ _ _ _ habsorb
  | unfinished here' hleft habsorb => exact absorb_no_misuse _ _ _ _ habsorb

/-- A submission enters a label, or is ignored, as the turn at its label decided. -/
theorem leave_of_submit {index : Nat} {outcome : Outcome} {after : Game State}
    (hsubmit : (Game.submit host index).result game = (.ok outcome, after)) :
    ∃ transition s, (leave host game.play view label index).result game.host = (.ok transition, s) ∧
      match outcome with
      | .entered target => ∃ bindings, transition = .enter target bindings
      | .ended => ∃ bindings, transition = .finish bindings
      | .ignored => transition = .stay := by
  have hsubmission := Game.submission host index game
  rw [hsubmit] at hsubmission
  cases hsubmission with
  | stayed here' hleave =>
    obtain ⟨rfl, rfl⟩ := here.unique here'
    exact ⟨_, _, hleave, rfl⟩
  | entered here' hleave hbuild habsorb hrebuild =>
    obtain ⟨rfl, rfl⟩ := here.unique here'
    exact ⟨_, _, hleave, _, rfl⟩
  | closed here' hleave =>
    obtain ⟨rfl, rfl⟩ := here.unique here'
    exact ⟨_, _, hleave, _, rfl⟩
  | finished here' hleave habsorb =>
    obtain ⟨rfl, rfl⟩ := here.unique here'
    exact ⟨_, _, hleave, _, rfl⟩

/-- Nothing changes where the turn at the label comes to nothing. -/
theorem submit_of_leave_error {index : Nat} {fault : Fault}
    (hleave : (leave host game.play view label index).result game.host = (.error fault, game.host)) :
    (Game.submit host index).result game = (.error fault, game) := by
  rw [Game.submit_of_at here, Action.result_bind_of_error (by rw [Game.result_onHost, hleave])]

theorem submit_of_leave_stay {index : Nat}
    (hleave : (leave host game.play view label index).result game.host = (.ok .stay, game.host)) :
    (Game.submit host index).result game = (.ok .ignored, game) := by
  rw [Game.submit_of_at here, Action.result_bind_of_ok (by rw [Game.result_onHost, hleave])]
  rfl

end At

/-! ## An offered index -/

/-- The label that the choice shown at a position leads to, and what is shown there: the after
block's where the label can only be continued, otherwise the target of the open choice. -/
def LeadsTo (s : State) (label : Label) (position : Nat) (text target : String) : Prop :=
  match label.choices with
  | none => text = Playthrough.continueText ∧ label.after.bind (·.target) = some target
  | some choices =>
    ∃ choice place, (openNow host s choices)[position]? = some (choice, place) ∧
      choice.text = text ∧ choice.target = target

/-- The choice shown at a position is taken: not refused as a submission that should not have been
made, not ignored, and a label that is entered is the one that it leads to. -/
structure Taken (s : State) (label : Label) (position : Nat) (text : String)
    (answer : Except Fault Outcome) : Prop where
  accepted : ∀ fault, answer = .error fault → ¬ fault.IsMisuse
  heeded : answer ≠ .ok .ignored
  leads : ∀ target, answer = .ok (.entered target) → LeadsTo s label position text target

section Shown

variable {game : Game State} {label : Label} {position : Nat} {text : String}

/-- What the turn that leaves a label may come to, at a position of what is shown. -/
def LeavesFor (s : State) (label : Label) (position : Nat) (text : String) :
    Playthrough.Transition Function → Prop
  | .enter target _ => LeadsTo s label position text target
  | .finish _ => label.choices = none
  | .stay => False

theorem leavesFor_continue (hchoices : label.choices = none) (p : Playthrough) (view : View)
    {s s' : State} {transition : Playthrough.Transition Function}
    (hleave : (leave host p view label 0).result s = (.ok transition, s')) :
    LeavesFor s label position Playthrough.continueText transition := by
  cases Playthrough.leaving hleave with
  | nothing => exact hchoices
  | @block after bindings _ _ hafter hrun =>
    cases htarget : after.target with
    | none => exact hchoices
    | some target =>
      show LeadsTo s label position Playthrough.continueText target
      unfold LeadsTo
      rw [hchoices]
      exact ⟨rfl, by rw [hafter, Option.bind_some, htarget]⟩
  | choice hsome =>
    rw [hchoices] at hsome
    cases hsome

theorem leavesFor_choice {choices : List Choice} (hchoices : label.choices = some choices)
    {p : Playthrough} {view : View} {index place : Nat} {choice : Choice} {s s' : State}
    (hpick : Playthrough.pick p.indexing view choices index = .ok choice)
    (hopen : (openNow host s choices)[position]? = some (choice, place))
    {transition : Playthrough.Transition Function}
    (hleave : (leave host p view label index).result s = (.ok transition, s')) :
    LeavesFor s label position choice.text transition := by
  cases Playthrough.leaving hleave with
  | nothing hnone =>
    rw [hchoices] at hnone
    cases hnone
  | block hnone =>
    rw [hchoices] at hnone
    cases hnone
  | @choice choices' picked isOpen bindings _ hsome hpicked hrun =>
    obtain rfl := Option.some.inj (hchoices.symm.trans hsome)
    obtain rfl := Except.ok.inj (hpick.symm.trans hpicked)
    -- the condition is asked on the variables it was shown on, and holds again
    have hisOpen : isOpen = true := by
      rw [(quiet.allowed hrun).2]
      exact (Playthrough.getElem?_of_openNow hopen).2
    rw [if_pos hisOpen]
    show LeadsTo s label position choice.text choice.target
    unfold LeadsTo
    rw [hchoices]
    exact ⟨choice, place, hopen, rfl, rfl⟩

/-- The turn that leaves a label at a position of what is shown does not fail as a submission that
should not have been made, and comes to what the choice says. -/
theorem leave_at_position
    (htext : (freshView host game.host label).choices[position]? = some text) :
    let left := leave host game.play (freshView host game.host label) label
      (game.play.indexing.indexAt (freshView host game.host label) position)
    FailsIn (fun fault => ¬ fault.IsMisuse) left ∧
      ∀ transition s, left.result game.host = (.ok transition, s) →
        LeavesFor game.host label position text transition := by
  intro left
  cases hchoices : label.choices with
  | none =>
    have hview : freshView host game.host label
        = ⟨label.name, label.text, [Playthrough.continueText], []⟩ := by
      unfold freshView
      rw [hchoices]
    rw [hview] at htext
    obtain ⟨rfl, rfl⟩ : position = 0 ∧ Playthrough.continueText = text := by
      simpa [List.getElem?_singleton] using htext
    have hzero : game.play.indexing.indexAt (freshView host game.host label) 0 = 0 := by
      rw [hview]
      cases game.play.indexing <;> rfl
    have hleft : left = leave host game.play (freshView host game.host label) label 0 := by
      show leave _ _ _ _ _ = _
      rw [hzero]
    refine ⟨?_, fun transition s hleave => leavesFor_continue hchoices _ _ (by rw [← hleft, hleave])⟩
    rw [hleft]
    unfold leave Playthrough.continueFrom
    rw [hchoices]
    dsimp only
    rw [if_neg (by simp)]
    split
    · exact .pure _
    · exact (raises_no_misuse.play (raises_no_misuse.executeBlock _)).bind fun _ => .pure _
  | some choices =>
    rw [Playthrough.choices_freshView hchoices, List.getElem?_map] at htext
    obtain ⟨⟨choice, place⟩, hopen, rfl⟩ := Option.map_eq_some_iff.mp htext
    have hpick := Playthrough.pick_of_open hchoices hopen game.play.indexing
    refine ⟨?_, fun transition s hleave => leavesFor_choice hchoices hpick hopen hleave⟩
    show FailsIn _ (leave _ _ _ _ _)
    unfold leave Playthrough.choose
    rw [hchoices]
    dsimp only
    rw [hpick]
    refine FailsIn.bind (.ofExcept fun fault hfail => by cases hfail) fun _ => ?_
    exact (raises_no_misuse.allowed _).bind fun _ => .pure _

theorem taken_at_position (here : game.At (freshView host game.host label) label)
    (htext : (freshView host game.host label).choices[position]? = some text) :
    Taken game.host label position text ((Game.submit host
      (game.play.indexing.indexAt (freshView host game.host label) position)).result game).1 := by
  obtain ⟨hfails, hleaves⟩ := leave_at_position htext
  rcases hsubmit : (Game.submit host
    (game.play.indexing.indexAt (freshView host game.host label) position)).result game with
    ⟨answer, after⟩
  refine ⟨?_, ?_, ?_⟩
  · rintro fault rfl
    exact submit_not_isMisuse here hfails hsubmit
  · rintro rfl
    obtain ⟨transition, s, hleave, rfl⟩ := leave_of_submit here hsubmit
    exact hleaves _ _ hleave
  · rintro target rfl
    obtain ⟨transition, s, hleave, bindings, rfl⟩ := leave_of_submit here hsubmit
    exact hleaves _ _ hleave

end Shown

/-! ## Any other index -/

/-- The answer to an index that is not offered, at a label that shows `shown` choices. -/
def refusal (indexing : Indexing) (label : Label) (shown index : Nat) : Except Fault Outcome :=
  let outOfRange (count : Nat) : Except Fault Outcome :=
    .error (.play (.indexOutOfRange label.name index count))
  match label.choices, indexing with
  | none, _ => outOfRange 1
  | some _, .visible => outOfRange shown
  | some choices, .declared => if index < choices.length then .ok .ignored else outOfRange choices.length

theorem leave_of_pick_error {p : Playthrough} {view : View} {label : Label} {choices : List Choice}
    (hchoices : label.choices = some choices) {index : Nat} {fault : Fault}
    (hpick : Playthrough.pick p.indexing view choices index = .error fault) (s : State) :
    (leave host p view label index).result s = (.error fault, s) := by
  unfold leave Playthrough.choose
  rw [hchoices]
  dsimp only
  rw [hpick, Action.result_bind_of_error (Action.result_ofExcept _ s)]

/-- A declared choice that is not open is ignored. -/
theorem leave_of_closed {game : Game State} (hcurrent : Current game)
    {label : Label} (here : game.At (freshView host game.host label) label) {choices : List Choice}
    (hchoices : label.choices = some choices) {index : Nat} {choice : Choice}
    (hpick : Playthrough.pick game.play.indexing (freshView host game.host label) choices index
      = .ok choice) (hmem : choice ∈ choices) (hclosed : opens host game.host choice = false) :
    (leave host game.play (freshView host game.host label) label index).result game.host
      = (.ok .stay, game.host) := by
  obtain ⟨bindings, hallowed⟩ := quiet.allowed_of_build (hcurrent _ here.shown)
    (Playthrough.resolve_eq_ok.mp here.declared) hchoices hmem
  unfold leave Playthrough.choose
  rw [hchoices]
  dsimp only
  rw [hpick, Action.result_bind_of_ok (Action.result_ofExcept _ _),
    Action.result_bind_of_ok hallowed, hclosed]
  rfl

/-- An index that is not offered changes nothing. -/
theorem submit_of_unoffered {game : Game State} (hcurrent : Current game) {label : Label}
    (here : game.At (freshView host game.host label) label) {index : Nat}
    (hother : ∀ choice ∈ game.play.indexedChoices, choice.1 ≠ index) :
    (Game.submit host index).result game
      = (refusal game.play.indexing label (freshView host game.host label).choices.length index,
          game) := by
  have hunlisted : ∀ position, position < (freshView host game.host label).choices.length →
      game.play.indexing.indexAt (freshView host game.host label) position ≠ index := by
    intro position hposition
    have hlisted := Playthrough.getElem?_indexedChoices here.shown position
    rw [List.getElem?_eq_getElem hposition] at hlisted
    exact hother _ (List.mem_of_getElem? hlisted)
  unfold refusal
  cases hchoices : label.choices with
  | none =>
    have hview : freshView host game.host label
        = ⟨label.name, label.text, [Playthrough.continueText], []⟩ := by
      unfold freshView
      rw [hchoices]
    have hindex : index ≠ 0 := by
      have hfirst := hunlisted 0 (by rw [hview]; exact Nat.one_pos)
      rw [hview] at hfirst
      intro hzero
      refine hfirst ?_
      rw [hzero]
      cases game.play.indexing <;> rfl
    refine submit_of_leave_error here ?_
    unfold leave Playthrough.continueFrom
    rw [hchoices]
    dsimp only
    rw [if_pos hindex]
    rfl
  | some choices =>
    have hplaces := Playthrough.places_freshView (h := host) (s := game.host) hchoices
    have hshown := Playthrough.choices_freshView (h := host) (s := game.host) hchoices
    cases hindexing : game.play.indexing with
    | visible =>
      have hbeyond : (openNow host game.host choices).length ≤ index := by
        refine Nat.le_of_not_lt fun hlt => hunlisted index ?_ ?_
        · rw [hshown, List.length_map]
          exact hlt
        · rw [hindexing]
          rfl
      refine submit_of_leave_error here (leave_of_pick_error hchoices ?_ _)
      rw [hindexing]
      simp [Playthrough.pick, hplaces, hshown, hbeyond]
    | declared =>
      dsimp only
      split
      · next hlt =>
        have hchoice : choices[index]? = some choices[index] := List.getElem?_eq_getElem hlt
        have hpick : Playthrough.pick game.play.indexing (freshView host game.host label) choices
            index = .ok choices[index] := by
          rw [hindexing]
          simp [Playthrough.pick, hchoice]
        -- were it open, it would be shown, and its place would be offered
        have hclosed : opens host game.host choices[index] = false := by
          refine Bool.eq_false_iff.mpr fun hopen => ?_
          obtain ⟨position, hposition⟩ :=
            List.getElem?_of_mem (Playthrough.mem_openNow hchoice hopen)
          refine hunlisted position ?_ ?_
          · rw [hshown, List.length_map]
            exact (List.getElem?_eq_some_iff.mp hposition).1
          · rw [hindexing]
            simp [Indexing.indexAt, hplaces, hposition]
        exact submit_of_leave_stay here
          (leave_of_closed hcurrent here hchoices hpick (List.getElem_mem hlt) hclosed)
      · next hge =>
        refine submit_of_leave_error here (leave_of_pick_error hchoices ?_ _)
        rw [hindexing]
        simp [Playthrough.pick, Nat.le_of_not_lt hge]

/-! ## Whole runs -/

/-- A move in one game and in another that is alike keeps them alike, and current. -/
theorem watch_alike : ∀ (moves : List Move) {a b : Game State}, Game.Alike a b → Current a →
    a.play.dialogue.labels.FiledByName → Game.watch host moves a = Game.watch host moves b
  | [], _, _, _, _, _ => rfl
  | m :: rest, a, b, alike, hcurrent, hfiled => by
    obtain ⟨hanswer, hafter⟩ := Game.alike_move alike hcurrent.fresh m
    have hkept : Current ((Game.move host m).result a).2 ∧
        ((Game.move host m).result a).2.play.dialogue = a.play.dialogue := by
      cases hoperation : m.operation? a.play with
      | none =>
        rw [Game.result_move_of_none hoperation]
        exact ⟨hcurrent, rfl⟩
      | some operation =>
        rw [Game.result_move_of_some hoperation]
        exact (current_act hfiled hcurrent operation).symm
    have hrest := watch_alike rest hafter hkept.1 (by rw [hkept.2]; exact hfiled)
    unfold Game.watch
    dsimp only
    rw [hanswer, hafter.view, hafter.host, hrest]

/-- **Every offered choice can be taken, in both ways of counting.** After any run of operations on
a compiled dialogue: the index listed at a position of what is shown is accepted and heeded, and a
label that it enters is the one that the choice shown there leads to; an index that is not listed
changes nothing; and from here on, moves that take the same positions show the same in both ways of
counting. -/
theorem offered_choices_can_be_taken {forms : List Expr} {d : Dialogue}
    (hcompiled : compileForms forms = .ok d) (indexing : Indexing) (s : State)
    (operations : List Operation) :
    let game := Game.run host operations ⟨⟨d, indexing, none⟩, s⟩
    (∀ view, game.play.view = some view → ∃ label, d.label? view.label = some label ∧
      (∀ position index text, game.play.indexedChoices[position]? = some (index, text) →
        Taken game.host label position text ((Game.submit host index).result game).1) ∧
      (∀ index, (∀ choice ∈ game.play.indexedChoices, choice.1 ≠ index) →
        (Game.submit host index).result game
          = (refusal game.play.indexing label view.choices.length index, game))) ∧
    ∀ moves, Game.watch host moves (game.withIndexing .declared)
      = Game.watch host moves (game.withIndexing .visible) := by
  intro game
  have hfiled := compileForms_filedByName hcompiled
  obtain ⟨hdialogue, hcurrent⟩ := current_run hfiled indexing s operations
  refine ⟨fun view hview => ?_, fun moves => ?_⟩
  · obtain ⟨label, here, rfl⟩ := hcurrent.fresh view hview
    have hlabel := Playthrough.resolve_eq_ok.mp here.declared
    rw [hdialogue] at hlabel
    refine ⟨label, hlabel, fun position index text hlisted => ?_,
      fun index hother => submit_of_unoffered hcurrent here hother⟩
    rw [Playthrough.getElem?_indexedChoices hview] at hlisted
    obtain ⟨shown, htext, hpair⟩ := Option.map_eq_some_iff.mp hlisted
    obtain ⟨rfl, rfl⟩ := Prod.mk.inj hpair
    exact taken_at_position here htext
  · have hcurrent' : Current (game.withIndexing .declared) := hcurrent
    refine watch_alike moves ⟨rfl, rfl, rfl⟩ hcurrent' ?_
    show game.play.dialogue.labels.FiledByName
    rw [hdialogue]
    exact hfiled

/-- A door that can be opened with a key, or left alone. -/
def doorForms : List Expr := [
  .list [.symbol "label", .symbol "door", .list [.symbol "text", .text "A door."],
    .list [.symbol "choice", .text "Open", .symbol "hall",
      .list [.symbol "cmp", .symbol "keys", .number 1]],
    .list [.symbol "choice", .text "Leave", .symbol "yard"]],
  .list [.symbol "label", .symbol "yard", .list [.symbol "text", .text "The yard."]],
  .list [.symbol "start-dialogue", .symbol "door"]]

/-- Without a key only leaving is offered, by the place of that choice among the declared ones. To
open is ignored, and there is no third choice. -/
theorem offered_at_the_door :
    ∃ d, compileForms doorForms = .ok d ∧
      let game := Game.run host [.start .declared]
        ⟨⟨d, .declared, none⟩, ⟨.origin, .ofList [("keys", 0)]⟩⟩
      game.play.indexedChoices = [(1, "Leave")] ∧
      (∀ fault, ((Game.submit host 1).result game).1 = .error fault → ¬ fault.IsMisuse) ∧
      (Game.submit host 0).result game = (.ok .ignored, game) ∧
      (Game.submit host 2).result game = (.error (.play (.indexOutOfRange "door" 2 2)), game) := by
  have hcompiled : compileForms doorForms = .ok ⟨"door", .ofList [
      ("door", ⟨"door", "A door.", some [⟨"Open", "hall", some (.list [.symbol "cmp",
        .symbol "keys", .number 1])⟩, ⟨"Leave", "yard", none⟩], none⟩),
      ("yard", ⟨"yard", "The yard.", none, none⟩)]⟩ := rfl
  refine ⟨_, hcompiled, ?_⟩
  intro game
  have hview : game.play.view = some ⟨"door", "A door.", ["Leave"], [1]⟩ := by decide
  have hlisted : game.play.indexedChoices = [(1, "Leave")] := by decide
  obtain ⟨hoffers, -⟩ := offered_choices_can_be_taken hcompiled .declared
    ⟨.origin, .ofList [("keys", 0)]⟩ [.start .declared]
  obtain ⟨label, hlabel, htaken, hother⟩ := hoffers _ hview
  cases hlabel
  refine ⟨hlisted, (htaken 0 1 "Leave" (by rw [hlisted]; rfl)).accepted, ?_, ?_⟩
  · exact hother 0 (by rw [hlisted]; decide)
  · exact hother 2 (by rw [hlisted]; decide)

end Colloquy.Sandbox
