import Colloquy.Proofs.Playthrough.Coupling
import Colloquy.Proofs.Playthrough.Fresh

/-!
# Two ways of counting choices

An index of a submission counts the declared choices or the shown ones. Either way the index listed
beside a shown choice picks that choice (`pick_of_open`), and so two games that differ in nothing
but the way of counting (`Game.Alike`) stay so as long as the player picks from what is shown.

A `Move` is what a player does who looks at the list of choices and nothing else: take the choice at
a position of it, go to a label, refresh, begin again, or come back to the place just saved. Main
statement, `Game.alike_move`: where what is shown is as it ought to be, a move gives the same answer
in both games and leaves them alike.
-/

namespace Colloquy

open Colloquy.Action (InStep)

variable {κ σ : Type}

/-- The index that stands for the choice shown at a position. -/
def Indexing.indexAt (indexing : Indexing) (view : View) (position : Nat) : Nat :=
  match indexing with
  | .declared => view.places[position]?.getD position
  | .visible => position

namespace Playthrough

theorem getElem?_indexedChoices {p : Playthrough} {view : View} (hview : p.view = some view)
    (position : Nat) :
    p.indexedChoices[position]?
      = view.choices[position]?.map fun text => (p.indexing.indexAt view position, text) := by
  unfold indexedChoices Indexing.indexAt
  rw [hview]
  dsimp only
  rw [List.getElem?_mapIdx]
  cases p.indexing <;> rfl

/-- The places of the open choices are their places among the declared ones. -/
theorem getElem?_of_openNow {h : Host κ σ} {s : σ} {choices : List Choice} {position place : Nat}
    {choice : Choice} (hopen : (openNow h s choices)[position]? = some (choice, place)) :
    choices[place]? = some choice ∧ opens h s choice = true := by
  obtain ⟨hzip, hopens⟩ := List.mem_filter.mp (List.mem_of_getElem? hopen)
  exact ⟨List.mk_mem_zipIdx_iff_getElem?.mp hzip, hopens⟩

theorem mem_openNow {h : Host κ σ} {s : σ} {choices : List Choice} {place : Nat} {choice : Choice}
    (hchoice : choices[place]? = some choice) (hopens : opens h s choice = true) :
    (choice, place) ∈ openNow h s choices :=
  List.mem_filter.mpr ⟨List.mk_mem_zipIdx_iff_getElem?.mpr hchoice, hopens⟩

section Shown

variable {h : Host κ σ} {s : σ} {label : Label} {choices : List Choice}

theorem choices_freshView (hchoices : label.choices = some choices) :
    (freshView h s label).choices = (openNow h s choices).map (·.1.text) := by
  unfold freshView
  rw [hchoices]

theorem places_freshView (hchoices : label.choices = some choices) :
    (freshView h s label).places = (openNow h s choices).map (·.2) := by
  unfold freshView
  rw [hchoices]

/-- In both ways of counting, the index of a shown choice picks that choice. -/
theorem pick_of_open (hchoices : label.choices = some choices) {position place : Nat}
    {choice : Choice} (hopen : (openNow h s choices)[position]? = some (choice, place))
    (indexing : Indexing) :
    pick indexing (freshView h s label) choices
      (indexing.indexAt (freshView h s label) position) = .ok choice := by
  have hplace : (freshView h s label).places[position]? = some place := by
    rw [places_freshView hchoices, List.getElem?_map, hopen]
    rfl
  have hchoice : choices[place]? = some choice := (getElem?_of_openNow hopen).1
  cases indexing with
  | declared => simp [pick, Indexing.indexAt, hplace, hchoice]
  | visible => simp [pick, Indexing.indexAt, hplace, hchoice]

end Shown

end Playthrough

/-! ## Games that differ in the way of counting -/

namespace Game

open Playthrough (openNow freshView leave resolve)

/-- The game with another way of counting choices. -/
def withIndexing (game : Game σ) (indexing : Indexing) : Game σ :=
  { game with play := { game.play with indexing } }

/-- The games are of one dialogue, show the same and are played on equal hosts. -/
structure Alike (a b : Game σ) : Prop where
  dialogue : a.play.dialogue = b.play.dialogue
  view : a.play.view = b.play.view
  host : a.host = b.host

/-- What is shown is the view of a declared label as it ought to be now. -/
def Fresh (h : Host κ σ) (game : Game σ) : Prop :=
  ∀ view, game.play.view = some view →
    ∃ label, game.At view label ∧ view = freshView h game.host label

theorem coupling_alike : Coupling (· = ·) (Alike (σ := σ)) where
  view alike := alike.view
  host alike := alike.host
  played alike hs := ⟨alike.dialogue, alike.view, hs⟩
  shown alike _ := ⟨alike.dialogue, rfl, alike.host⟩

theorem build_alike {h : Host κ σ} {a b : Game σ} (alike : Alike a b) (name : String) :
    InStep (· = ·) (· = ·) (Playthrough.build h a.play.dialogue name)
      (Playthrough.build h b.play.dialogue name) := by
  rw [alike.dialogue]
  exact .refl _

theorem alike_begin (h : Host κ σ) (d : Dialogue) (i j : Indexing) (label : Option String) :
    InStep (· = ·) (fun p q => p.dialogue = q.dialogue ∧ p.view = q.view)
      (Playthrough.begin h d i label) (Playthrough.begin h d j label) := by
  rintro s _ rfl
  cases label with
  | none => exact ⟨.ok ⟨rfl, rfl⟩, rfl⟩
  | some name =>
    unfold Playthrough.begin
    rw [Action.result_bind_pure, Action.result_bind_pure]
    cases ((Playthrough.build h d name).result s).1 with
    | ok view => exact ⟨.ok ⟨rfl, rfl⟩, rfl⟩
    | error fault => exact ⟨.error fault, rfl⟩

theorem alike_replace {next next' : Dialogue → Action σ Playthrough}
    (hnext : ∀ d, InStep (· = ·) (fun p q => p.dialogue = q.dialogue ∧ p.view = q.view)
      (next d) (next' d)) :
    InStep Alike (· = ·) (replace next) (replace next') := by
  refine coupling_alike.replace (R := fun p q => p.dialogue = q.dialogue ∧ p.view = q.view) ?_
    fun alike hpq => ⟨hpq.1, hpq.2, alike.host⟩
  intro a b alike
  rw [alike.dialogue]
  exact hnext b.play.dialogue

/-- Submissions that leave the label alike go on alike. -/
theorem alike_submit {h : Host κ σ} {a b : Game σ} (alike : Alike a b) {view : View} {label : Label}
    (here : a.At view label) {i j : Nat}
    (hleave : (leave h a.play view label i).result a.host
      = (leave h b.play view label j).result b.host) :
    ((submit h i).result a).1 = ((submit h j).result b).1 ∧
      Alike ((submit h i).result a).2 ((submit h j).result b).2 := by
  have here' : b.At view label :=
    ⟨by rw [← alike.view]; exact here.shown, by rw [← alike.dialogue]; exact here.declared⟩
  rw [submit_of_at here, submit_of_at here', ← alike.dialogue]
  rcases hresult : (leave h b.play view label j).result b.host with ⟨fault | transition, s⟩
  all_goals rw [hresult] at hleave
  · rw [Action.result_bind_of_error (by rw [result_onHost, hleave]),
      Action.result_bind_of_error (by rw [result_onHost, hresult])]
    exact ⟨rfl, alike.dialogue, alike.view, rfl⟩
  · rw [Action.result_bind_of_ok (by rw [result_onHost, hleave]),
      Action.result_bind_of_ok (by rw [result_onHost, hresult])]
    have hafter : Alike { a with host := s } { b with host := s } :=
      ⟨alike.dialogue, alike.view, rfl⟩
    -- from here on both do the same
    have hfollow : InStep Alike (· = ·) (follow h a.play.dialogue transition)
        (follow h a.play.dialogue transition) :=
      coupling_alike.follow (fun _ => .refl _) (fun _ => .refl _) transition
    exact ⟨(hfollow _ _ hafter).1.eq, (hfollow _ _ hafter).2⟩

end Game

/-! ## Moves -/

/-- What a player does who only looks at the list of choices. -/
inductive Move
  /-- Takes the choice at a position of the list. -/
  | take (position : Nat)
  | enter (label : String)
  | refresh
  | restart
  /-- Comes back to the place just saved. -/
  | reload

/-- The operation that a move stands for; none if there is nothing at the position. -/
def Move.operation? (p : Playthrough) : Move → Option Operation
  | take position => p.indexedChoices[position]?.map fun choice => .submit choice.1
  | enter label => some (.enter label)
  | refresh => some .refresh
  | restart => some (.start p.indexing)
  | reload => some (.resume p.snapshot)

namespace Game

open Playthrough (openNow freshView leave)

/-- Makes a move, or does nothing if the move stands for nothing. -/
def move (h : Host κ σ) (m : Move) : Action (Game σ) (Option Outcome) := do
  match m.operation? (← get).play with
  | some operation => act h operation
  | none => pure none

theorem operation?_take {p : Playthrough} {view : View} (hview : p.view = some view)
    (position : Nat) :
    (Move.take position).operation? p
      = view.choices[position]?.map fun _ => .submit (p.indexing.indexAt view position) := by
  simp [Move.operation?, Playthrough.getElem?_indexedChoices hview, Function.comp_def]

theorem operation?_take_of_over {p : Playthrough} (hview : p.view = none) (position : Nat) :
    (Move.take position).operation? p = none := by
  simp [Move.operation?, Playthrough.indexedChoices, hview]

/-- What is seen while moves are made: the answer to each of them, and what is shown and how the
host stands after it. -/
def watch (h : Host κ σ) :
    List Move → Game σ → List (Except Fault (Option Outcome) × Option View × σ)
  | [], _ => []
  | m :: rest, game =>
    let (answer, after) := (move h m).result game
    (answer, after.play.view, after.host) :: watch h rest after

theorem result_move_of_some {h : Host κ σ} {m : Move} {game : Game σ} {operation : Operation}
    (hoperation : m.operation? game.play = some operation) :
    (move h m).result game = (act h operation).result game := by
  unfold move
  rw [Action.result_bind_of_ok (Action.result_get game), hoperation]

theorem result_move_of_none {h : Host κ σ} {m : Move} {game : Game σ}
    (hoperation : m.operation? game.play = none) :
    (move h m).result game = (.ok none, game) := by
  unfold move
  rw [Action.result_bind_of_ok (Action.result_get game), hoperation]
  rfl

theorem result_act_submit (h : Host κ σ) (index : Nat) (game : Game σ) :
    (act h (.submit index)).result game
      = (((submit h index).result game).1.map some, ((submit h index).result game).2) :=
  Action.result_bind_pure (submit h index) some game

/-- At a position that shows something, both ways of counting leave the label alike. -/
theorem leave_indexAt {h : Host κ σ} {game : Game σ} {view : View} {label : Label}
    (hfresh : view = freshView h game.host label) {position : Nat}
    (hposition : position < view.choices.length) (p q : Playthrough) :
    leave h p view label (p.indexing.indexAt view position)
      = leave h q view label (q.indexing.indexAt view position) := by
  unfold leave
  cases hchoices : label.choices with
  | none =>
    -- the only choice is to continue, which both count as zero
    have hview : view = ⟨label.name, label.text, [Playthrough.continueText], []⟩ := by
      rw [hfresh]
      unfold freshView
      rw [hchoices]
    obtain rfl : position = 0 := by
      rw [hview] at hposition
      exact Nat.lt_one_iff.mp hposition
    rw [hview]
    cases p.indexing <;> cases q.indexing <;> rfl
  | some choices =>
    rw [hfresh, Playthrough.choices_freshView hchoices, List.length_map] at hposition
    have hopen : (openNow h game.host choices)[position]?
        = some ((openNow h game.host choices)[position].1,
            (openNow h game.host choices)[position].2) :=
      List.getElem?_eq_getElem hposition
    simp only [Playthrough.choose]
    rw [hfresh, Playthrough.pick_of_open hchoices hopen, Playthrough.pick_of_open hchoices hopen]

/-- Where what is shown is as it ought to be, a move is answered alike in games that are alike. -/
theorem alike_move {h : Host κ σ} {a b : Game σ} (alike : Alike a b) (hfresh : Fresh h a)
    (m : Move) :
    ((move h m).result a).1 = ((move h m).result b).1 ∧
      Alike ((move h m).result a).2 ((move h m).result b).2 := by
  have agreed : ∀ {operation operation' : Operation},
      m.operation? a.play = some operation → m.operation? b.play = some operation' →
      InStep Alike (· = ·) (act h operation) (act h operation') →
      ((move h m).result a).1 = ((move h m).result b).1 ∧
        Alike ((move h m).result a).2 ((move h m).result b).2 := by
    intro operation operation' ha hb hact
    rw [result_move_of_some ha, result_move_of_some hb]
    exact ⟨(hact a b alike).1.eq, (hact a b alike).2⟩
  cases m with
  | enter label =>
    exact agreed rfl rfl ((coupling_alike.enter build_alike label).bind fun _ _ _ => .pure rfl)
  | refresh =>
    exact agreed rfl rfl ((coupling_alike.refresh build_alike).bind fun _ _ _ => .pure rfl)
  | restart =>
    refine agreed rfl rfl (InStep.bind (alike_replace fun d => ?_) fun _ _ _ => .pure rfl)
    exact alike_begin h d a.play.indexing b.play.indexing (some d.initial)
  | reload =>
    refine agreed rfl rfl (InStep.bind (alike_replace fun d => ?_) fun _ _ _ => .pure rfl)
    have hcheck : Playthrough.checkSnapshot d a.play.snapshot
        = Playthrough.checkSnapshot d b.play.snapshot := by
      unfold Playthrough.snapshot
      rw [alike.view]
      rfl
    have hlabel : a.play.snapshot.label = b.play.snapshot.label := by
      unfold Playthrough.snapshot
      rw [alike.view]
    unfold Playthrough.resume
    rw [hcheck, hlabel]
    refine (InStep.ofExcept (Agree.refl (R := (· = ·)) (fun _ => rfl) _)).bind fun _ _ _ => ?_
    exact alike_begin h d _ _ _
  | take position =>
    cases hview : a.play.view with
    | none =>
      rw [result_move_of_none (operation?_take_of_over hview position),
        result_move_of_none (operation?_take_of_over (by rw [← alike.view]; exact hview) position)]
      exact ⟨rfl, alike⟩
    | some view =>
      obtain ⟨label, here, hviews⟩ := hfresh view hview
      have ha := operation?_take hview position
      have hb := operation?_take (p := b.play) (by rw [← alike.view]; exact hview) position
      by_cases hposition : position < view.choices.length
      · rw [List.getElem?_eq_getElem hposition] at ha hb
        rw [result_move_of_some ha, result_move_of_some hb, result_act_submit, result_act_submit]
        have hsubmit := alike_submit alike here (i := a.play.indexing.indexAt view position)
          (j := b.play.indexing.indexAt view position)
          (by rw [leave_indexAt hviews hposition a.play b.play, alike.host])
        rw [hsubmit.1]
        exact ⟨rfl, hsubmit.2⟩
      · rw [List.getElem?_eq_none (Nat.le_of_not_lt hposition)] at ha hb
        rw [result_move_of_none ha, result_move_of_none hb]
        exact ⟨rfl, alike⟩

end Game

end Colloquy
