import Colloquy.Proofs.LinePlayer.Lines
import Mathlib.Logic.Function.Iterate

/-!
# The loops of the line player

`LinePlayer.run` folds over the lines of an input. Played, a game is two loops in each other, the outer
one to show a boundary and the inner one to ask for lines: `Loop` is where such a game stands, with
what is left of its input, and `Loop.step` goes on by showing one boundary or by asking for one line.
Main statement: `loop_ends`. However the answers go, the loops are over after two steps a line and two
more, and have come to what the fold gives. The fold and the loops are kept together by `Stands`; only
where they are asking have they shown different things, namely the prompt.
-/

namespace Colloquy.LinePlayer

/-- Where a game is in its loops. -/
inductive Stage
  | showing
  | asking
  | ended (verdict : Except Fault Unit)

/-- How a game stands before a turn of one of its loops. -/
structure Loop where
  stage : Stage
  player : Player
  /-- What is left of the input. -/
  input : List Char
  /-- Everything shown so far. -/
  output : String

/-- What the answer to a line leads to. -/
def Next.stage : Next → Stage
  | again => .asking
  | redraw => .showing
  | stop => .ended (.ok ())

/-- Shows the boundary, or asks for a line and answers it. -/
def Loop.step (s : Setting) (l : Loop) : Loop :=
  match l.stage with
  | .ended _ => l
  | .showing =>
    let output := l.output ++ linesText (boundaryLines l.player.session.boundary)
    match l.player.session.boundary with
    | .finished => { l with stage := .ended (.ok ()), output }
    | .choices .. => { l with stage := .asking, output }
  | .asking =>
    let output := l.output ++ promptText
    match readLine l.input with
    | none => { l with stage := .ended (.ok ()), output }
    | some (line, input) =>
      match (answer s (withoutLineEnd line)).result l.player with
      | (.error fault, player) => ⟨.ended (.error fault), player, input, output⟩
      | (.ok (lines, next), player) => ⟨next.stage, player, input, output ++ linesText lines⟩

/-- How a game starts. -/
def Loop.start (s : Setting) (player : Player) (input : String) : Loop :=
  ⟨.showing, player, input.toList, linesText (openingLines s)⟩

/-- The progress of the fold at the loops: both are asking, or both are over. -/
inductive Stands : Progress → Loop → Prop
  | asking {player : Player} {input : List Char} {output : String} :
      Stands ⟨player, output ++ promptText, none⟩ ⟨.asking, player, input, output⟩
  | ended {verdict : Except Fault Unit} {player : Player} {input : List Char} {output : String} :
      Stands ⟨player, output, some verdict⟩ ⟨.ended verdict, player, input, output⟩

variable {s : Setting}

/-- Lines that come when the game is over are not taken. -/
theorem foldl_take_of_over {p : Progress} {verdict : Except Fault Unit}
    (hover : p.verdict = some verdict) (lines : List String) :
    lines.foldl (Progress.take s) p = p := by
  induction lines with
  | nil => rfl
  | cons line rest ih =>
    have htake : p.take s line = p := by
      unfold Progress.take
      rw [hover]
    rw [List.foldl_cons, htake, ih]

theorem stands_showBoundary (player : Player) (input : List Char) (output : String) :
    Stands (Progress.showBoundary ⟨player, output, none⟩)
        (Loop.step s ⟨.showing, player, input, output⟩) ∧
      (Loop.step s ⟨.showing, player, input, output⟩).input = input := by
  unfold Progress.showBoundary Loop.step
  dsimp only
  cases player.session.boundary with
  | finished => exact ⟨.ended, rfl⟩
  | choices label prompt choices => exact ⟨.asking, rfl⟩

/-- A line takes the loops one step, and another one where the boundary is shown anew. -/
theorem stands_take (player : Player) {input rest : List Char} (output : String) {line : String}
    (hread : readLine input = some (line, rest)) :
    ∃ n l, n ≤ 2 ∧ (Loop.step s)^[n] ⟨.asking, player, input, output⟩ = l ∧ l.input = rest ∧
      Stands (Progress.take s ⟨player, output ++ promptText, none⟩ line) l := by
  rcases hanswer : (answer s (withoutLineEnd line)).result player with
    ⟨fault | ⟨lines, next⟩, player'⟩
  · have hstep : Loop.step s ⟨.asking, player, input, output⟩
        = ⟨.ended (.error fault), player', rest, output ++ promptText⟩ := by
      unfold Loop.step
      dsimp only
      rw [hread]
      dsimp only
      rw [hanswer]
    refine ⟨1, _, by omega, hstep, rfl, ?_⟩
    unfold Progress.take
    dsimp only
    rw [hanswer]
    exact .ended
  · have hstep : Loop.step s ⟨.asking, player, input, output⟩
        = ⟨next.stage, player', rest, output ++ promptText ++ linesText lines⟩ := by
      unfold Loop.step
      dsimp only
      rw [hread]
      dsimp only
      rw [hanswer]
    unfold Progress.take
    dsimp only
    rw [hanswer]
    cases next with
    | again => exact ⟨1, _, by omega, hstep, rfl, .asking⟩
    | stop => exact ⟨1, _, by omega, hstep, rfl, .ended⟩
    | redraw =>
      obtain ⟨hstands, hrest⟩ := stands_showBoundary (s := s) player' rest
        (output ++ promptText ++ linesText lines)
      refine ⟨2, _, by omega, ?_, hrest, hstands⟩
      rw [Function.iterate_succ_apply, hstep]
      rfl

/-- What is left of an input has a first line just when it is read off it. -/
theorem readLine_of_linesOf_nil {input : List Char} (h : linesOf input = []) :
    readLine input = none := by
  rw [linesOf_eq] at h
  cases hread : readLine input with
  | none => rfl
  | some read =>
    rw [hread] at h
    cases h

theorem readLine_of_linesOf_cons {input : List Char} {line : String} {lines : List String}
    (h : linesOf input = line :: lines) :
    ∃ rest, readLine input = some (line, rest) ∧ linesOf rest = lines := by
  rw [linesOf_eq] at h
  cases hread : readLine input with
  | none =>
    rw [hread] at h
    cases h
  | some read =>
    rw [hread] at h
    obtain ⟨rfl, hrest⟩ := List.cons.inj h
    exact ⟨read.2, rfl, hrest⟩

/-- From wherever the loops stand they are over after two steps a line and one more. -/
theorem loop_ends_from (lines : List String) : ∀ {p : Progress} {l : Loop},
    linesOf l.input = lines → Stands p l → ∃ n rest, n ≤ 2 * lines.length + 1 ∧
      let q := lines.foldl (Progress.take s) p
      (Loop.step s)^[n] l = ⟨.ended (q.verdict.getD (.ok ())), q.player, rest, q.output⟩ := by
  induction lines with
  | nil =>
    intro p l hlines hstands
    cases hstands with
    | @ended verdict player input output => exact ⟨0, input, by omega, rfl⟩
    | @asking player input output =>
      have hread : readLine input = none := readLine_of_linesOf_nil hlines
      refine ⟨1, input, by omega, ?_⟩
      show Loop.step s ⟨.asking, player, input, output⟩ = _
      unfold Loop.step
      dsimp only
      rw [hread]
      rfl
  | cons line lines ih =>
    intro p l hlines hstands
    cases hstands with
    | @ended verdict player input output =>
      refine ⟨0, input, by omega, ?_⟩
      rw [foldl_take_of_over rfl]
      rfl
    | @asking player input output =>
      obtain ⟨rest, hread, hrest⟩ := readLine_of_linesOf_cons hlines
      obtain ⟨n, l, hn, hsteps, hinput, hstands⟩ :=
        stands_take (s := s) player output hread
      obtain ⟨m, rest', hm, hend⟩ := ih (by rw [hinput]; exact hrest) hstands
      refine ⟨m + n, rest', ?_, ?_⟩
      · rw [List.length_cons]
        omega
      · dsimp only at hend ⊢
        rw [List.foldl_cons, Function.iterate_add_apply, hsteps, hend]

/-- **The line player's loops end**, after two steps for every line of the input and two more at most,
with what the fold over the lines shows, with its verdict and with its player. -/
theorem loop_ends (s : Setting) (player : Player) (input : String) :
    ∃ n rest, n ≤ 2 * (linesOf input.toList).length + 2 ∧
      let (output, verdict, last) := run s player input
      (Loop.step s)^[n] (Loop.start s player input) = ⟨.ended verdict, last, rest, output⟩ := by
  obtain ⟨hstands, hinput⟩ :=
    stands_showBoundary (s := s) player input.toList (linesText (openingLines s))
  obtain ⟨n, rest, hn, hend⟩ := loop_ends_from (s := s) (linesOf input.toList)
    (by rw [hinput]) hstands
  refine ⟨n + 1, rest, by omega, ?_⟩
  rw [Function.iterate_succ_apply]
  exact hend

end Colloquy.LinePlayer
