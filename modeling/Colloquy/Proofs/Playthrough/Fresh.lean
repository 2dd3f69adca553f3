import Colloquy.Playthrough
import Colloquy.Proofs.Evaluation.Quiet

/-!
# What a view ought to show

`freshView` says what is to be seen of a label, apart from how a view is built: the declared
choices, in the order of their declaration, that have no condition or one that evaluates above zero
on the bindings that the host seeds now. Main statement, `Host.Quiet.build`: on a quiet host a
label that can be built is shown so, and building it leaves the host alone.
-/

namespace Colloquy

variable {κ σ : Type}

namespace Playthrough

/-- Whether a choice has no condition, or one above zero in a turn of its own. -/
def opens (h : Host κ σ) (s : σ) (choice : Choice) : Bool :=
  match choice.condition with
  | none => true
  | some condition =>
    match h.turnBindings s with
    | .error _ => false
    | .ok bindings =>
      match ((Turn.evaluate h condition).result ⟨bindings, s⟩).1 with
      | .ok (.number x) => x > 0
      | _ => false

/-- The open choices among the declared ones, each with its place. -/
def openNow (h : Host κ σ) (s : σ) (choices : List Choice) : List (Choice × Nat) :=
  choices.zipIdx.filter fun c => opens h s c.1

/-- What is to be seen of a label. -/
def freshView (h : Host κ σ) (s : σ) (label : Label) : View :=
  match label.choices with
  | none => ⟨label.name, label.text, [continueText], []⟩
  | some choices =>
    ⟨label.name, label.text, (openNow h s choices).map (·.1.text), (openNow h s choices).map (·.2)⟩

theorem resolve_eq_ok {d : Dialogue} {name : String} {label : Label} :
    resolve d name = .ok label ↔ d.label? name = some label := by
  unfold resolve
  cases d.label? name <;> simp

@[simp] theorem label_freshView (h : Host κ σ) (s : σ) (label : Label) :
    (freshView h s label).label = label.name := by
  unfold freshView
  split <;> rfl

end Playthrough

open Playthrough (opens openNow freshView)

/-- A turn that ends well was played on what the host seeded. -/
theorem Turn.play_eq_ok {α : Type} {h : Host κ σ} {turn : Turn κ σ α} {s s' : σ} {value : α}
    {bindings : Bindings κ} (hplay : (Turn.play h turn).result s = (.ok (value, bindings), s')) :
    ∃ seeded, h.turnBindings s = .ok seeded ∧
      turn.result ⟨seeded, s⟩ = (.ok value, ⟨bindings, s'⟩) := by
  rw [Turn.play, Action.result_of] at hplay
  rcases hseed : h.turnBindings s with fault | seeded
  · rw [hseed] at hplay
    cases hplay
  · rw [hseed] at hplay
    dsimp only at hplay
    rcases hturn : turn.result ⟨seeded, s⟩ with ⟨fault | result, state⟩
    · rw [hturn] at hplay
      cases hplay
    · rw [hturn] at hplay
      cases hplay
      exact ⟨seeded, rfl, hturn⟩

namespace Host.Quiet

variable {h : Host κ σ}

/-- Asking whether a choice is open leaves the host alone. -/
theorem allowed (Q : h.Quiet) {choice : Choice} {s s' : σ} {isOpen : Bool} {bindings : Bindings κ}
    (hallowed : (Playthrough.allowed h choice).result s = (.ok (isOpen, bindings), s')) :
    s' = s ∧ isOpen = opens h s choice := by
  obtain ⟨seeded, hseed, hturn⟩ := Turn.play_eq_ok hallowed
  unfold opens
  cases hcondition : choice.condition with
  | none =>
    rw [hcondition] at hturn
    cases hturn
    exact ⟨rfl, rfl⟩
  | some condition =>
    rw [hcondition] at hturn
    obtain ⟨hhost, x, hvalue, hholds⟩ := Q.evaluateCondition hturn
    refine ⟨hhost, ?_⟩
    rw [hseed]
    dsimp only
    rw [hvalue]
    exact hholds

theorem openChoices (Q : h.Quiet) : ∀ (choices : List Choice) (place : Nat) {s s' : σ}
    {shown : List (Nat × String)},
    (Playthrough.openChoices h place choices).result s = (.ok shown, s') →
      s' = s ∧ shown = ((choices.zipIdx place).filter fun c => opens h s c.1).map
        fun c => (c.2, c.1.text)
  | [], place, s, s', shown, hrun => by
    cases hrun
    exact ⟨rfl, rfl⟩
  | choice :: rest, place, s, s', shown, hrun => by
    obtain ⟨⟨isOpen, bindings⟩, s₁, hallowed, hrest⟩ := Action.result_bind_eq_ok.mp hrun
    obtain ⟨others, s₂, hothers, hend⟩ := Action.result_bind_eq_ok.mp hrest
    obtain ⟨rfl, rfl⟩ := Q.allowed hallowed
    obtain ⟨rfl, rfl⟩ := openChoices Q rest (place + 1) hothers
    cases hend
    refine ⟨rfl, ?_⟩
    rw [List.zipIdx_cons, List.filter_cons]
    cases opens h _ choice <;> rfl

theorem viewOf (Q : h.Quiet) {label : Label} {s s' : σ} {view : View}
    (hview : (Playthrough.viewOf h label).result s = (.ok view, s')) :
    s' = s ∧ view = freshView h s label := by
  unfold Playthrough.viewOf at hview
  unfold freshView
  cases hchoices : label.choices with
  | none =>
    rw [hchoices] at hview
    cases hview
    exact ⟨rfl, rfl⟩
  | some choices =>
    rw [hchoices] at hview
    obtain ⟨shown, s₁, hshown, hend⟩ := Action.result_bind_eq_ok.mp hview
    obtain ⟨rfl, rfl⟩ := Q.openChoices choices 0 hshown
    cases hend
    refine ⟨rfl, ?_⟩
    rw [List.map_map, List.map_map]
    rfl

/-- A label that can be built on a quiet host shows what it ought to, and the host is left alone. -/
theorem build (Q : h.Quiet) {d : Dialogue} {name : String} {s s' : σ} {view : View}
    (hbuild : (Playthrough.build h d name).result s = (.ok view, s')) :
    s' = s ∧ ∃ label, d.label? name = some label ∧ view = freshView h s label := by
  obtain ⟨label, s₁, hlabel, hview⟩ := Action.result_bind_eq_ok.mp hbuild
  rw [Action.result_ofExcept] at hlabel
  obtain ⟨hresolve, rfl⟩ := Prod.mk.inj hlabel
  obtain ⟨hhost, hfresh⟩ := Q.viewOf hview
  exact ⟨hhost, label, Playthrough.resolve_eq_ok.mp hresolve, hfresh⟩

/-- Where it could be told which choices are open, each of them can be asked about again. -/
theorem allowed_of_openChoices (Q : h.Quiet) : ∀ (choices : List Choice) (place : Nat) {s s' : σ}
    {shown : List (Nat × String)},
    (Playthrough.openChoices h place choices).result s = (.ok shown, s') →
      ∀ choice ∈ choices, ∃ bindings,
        (Playthrough.allowed h choice).result s = (.ok (opens h s choice, bindings), s)
  | [], place, s, s', shown, hrun, choice, hmem => by cases hmem
  | first :: rest, place, s, s', shown, hrun, choice, hmem => by
    obtain ⟨⟨isOpen, bindings⟩, s₁, hallowed, hrest⟩ := Action.result_bind_eq_ok.mp hrun
    obtain ⟨others, s₂, hothers, -⟩ := Action.result_bind_eq_ok.mp hrest
    obtain ⟨rfl, rfl⟩ := Q.allowed hallowed
    rcases List.mem_cons.mp hmem with rfl | hmem
    · exact ⟨bindings, hallowed⟩
    · exact allowed_of_openChoices Q rest (place + 1) hothers choice hmem

/-- Where a label could be built, each of its choices can be asked about again. -/
theorem allowed_of_build (Q : h.Quiet) {d : Dialogue} {name : String} {s s' : σ} {view : View}
    (hbuild : (Playthrough.build h d name).result s = (.ok view, s')) {label : Label}
    (hlabel : d.label? name = some label) {choices : List Choice}
    (hchoices : label.choices = some choices) {choice : Choice} (hmem : choice ∈ choices) :
    ∃ bindings, (Playthrough.allowed h choice).result s = (.ok (opens h s choice, bindings), s) := by
  unfold Playthrough.build at hbuild
  rw [Playthrough.resolve_eq_ok.mpr hlabel] at hbuild
  obtain ⟨found, s₁, hfound, hview⟩ := Action.result_bind_eq_ok.mp hbuild
  cases hfound
  unfold Playthrough.viewOf at hview
  rw [hchoices] at hview
  obtain ⟨shown, s₂, hshown, -⟩ := Action.result_bind_eq_ok.mp hview
  exact Q.allowed_of_openChoices choices 0 hshown choice hmem

end Host.Quiet

end Colloquy
