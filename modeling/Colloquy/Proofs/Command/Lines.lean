import Colloquy.Command.Run
import Colloquy.Proofs.Dialogue.Names
import Colloquy.Proofs.Json.Line
import Colloquy.Proofs.Json.Quantity
import Colloquy.Proofs.Playthrough.Strict
import Colloquy.Proofs.Sandbox.Nearest
import Colloquy.Proofs.Session.Load

/-!
# Reading what a command has told

What a command tells at a boundary is cut into lines at the line ends and read line by line, each
value behind its key: the label as it stands, texts and the state of the sandbox as documents, an
index up to the first bar (`Command.told?`). Nothing in a value can end a line: texts are escaped, the
names of labels are symbols (`Program.isSymbol_of_contains`) and documents are compact
(`Json.newline_not_mem_compact`). Main statement, `Command.told_is_read_back`: of any game of a program
that was read, the lines are those that were told, and they are read as the boundary, the state and
the path.
-/

namespace Colloquy

/-! ## Games of a dialogue -/

namespace Game

variable {κ σ : Type}

open Playthrough (build)

/-- A game that was started or resumed in a dialogue and went on from there, by operations that may
have failed and with whatever else happened to its host. -/
inductive Plays (h : Host κ σ) (d : Dialogue) : Game σ → Prop
  | started {indexing : Indexing} {play : Playthrough} {s s' : σ}
    (hstart : (Playthrough.start h d indexing).result s = (.ok play, s')) : Plays h d ⟨play, s'⟩
  | resumed {snapshot : Snapshot} {play : Playthrough} {s s' : σ}
    (hresume : (Playthrough.resume h d snapshot).result s = (.ok play, s')) : Plays h d ⟨play, s'⟩
  | operated {game : Game σ} (hplays : Plays h d game) (operation : Operation) :
    Plays h d ((act h operation).result game).2
  | changed {game : Game σ} (hplays : Plays h d game) (host : σ) : Plays h d { game with host }

theorem settled_of_begin {h : Host κ σ} {d : Dialogue} (hfiled : d.labels.FiledByName)
    {indexing : Indexing} {label : Option String} {play : Playthrough} {s s' : σ}
    (hbegin : (Playthrough.begin h d indexing label).result s = (.ok play, s')) :
    Settled d ⟨play, s'⟩ := by
  cases label with
  | none =>
    cases hbegin
    exact ⟨rfl, fun view hview => by cases hview⟩
  | some name =>
    obtain ⟨view, _, hbuild, hview⟩ := Action.result_bind_eq_ok.mp hbegin
    cases hview
    refine ⟨rfl, fun shown hshown => ?_⟩
    obtain rfl := Option.some.inj hshown
    exact Playthrough.contains_of_built hfiled hbuild

theorem Plays.settled {h : Host κ σ} {d : Dialogue} (hfiled : d.labels.FiledByName) {game : Game σ}
    (hplays : Plays h d game) : game.Settled d := by
  induction hplays with
  | started hstart => exact settled_of_begin hfiled hstart
  | resumed hresume =>
    obtain ⟨_, _, -, hbegin⟩ := Action.result_bind_eq_ok.mp hresume
    exact settled_of_begin hfiled hbegin
  | operated _ operation ih => exact ih.act hfiled operation
  | changed _ host ih => exact ⟨ih.dialogue, ih.declared⟩

end Game

/-! ## Lines -/

namespace Command

/-- The lines of a text, cut at every line end. -/
def splitLines (text : String) : List String := (text.toList.splitOn '\n').map String.ofList

theorem toList_linesText : ∀ lines : List String, (LinePlayer.linesText lines).toList
    = ['\n'].intercalate (lines.map String.toList ++ [[]])
  | [] => rfl
  | line :: rest => by
    have hrest := toList_linesText rest
    unfold LinePlayer.linesText at hrest ⊢
    rw [List.map_cons, String.join_cons, String.toList_append, String.toList_append, hrest,
      List.map_cons, List.cons_append, List.intercalate_cons_of_ne_nil (by simp)]
    rfl

/-- Lines without line ends are cut apart again, with nothing after the last one. -/
theorem splitLines_linesText {lines : List String} (h : ∀ line ∈ lines, '\n' ∉ line.toList) :
    splitLines (LinePlayer.linesText lines) = lines ++ [""] := by
  have hparts : ∀ part ∈ lines.map String.toList ++ [[]], '\n' ∉ part := by
    refine List.forall_mem_append.mpr ⟨List.forall_mem_map.mpr h, List.forall_mem_singleton.mpr ?_⟩
    exact List.not_mem_nil
  unfold splitLines
  rw [toList_linesText, List.splitOn_intercalate '\n' hparts (by simp), List.map_append, List.map_map]
  have hlines : lines.map (String.ofList ∘ String.toList) = lines :=
    (List.map_congr_left fun line _ => String.ofList_toList).trans (List.map_id lines)
  rw [hlines]
  rfl

/-! ## Reading lines -/

/-- What stands behind a key. -/
def behind? (key line : String) : Option String :=
  if key.toList <+: line.toList then some (String.ofList (line.toList.drop key.toList.length)) else none

/-- The text that stands behind a key as a document. -/
def textBehind? (key line : String) : Option String := do
  let value ← behind? key line
  (← Json.read? value).toText?

/-- The number that digits stand for. -/
def indexOf? (digits : List Char) : Option Nat :=
  if digits ≠ [] ∧ digits.all Decimal.isDigit then some (Decimal.valueOf digits) else none

/-- Whether a line tells a choice. -/
def tellsChoice (line : String) : Bool := (behind? "CHOICE:" line).isSome

/-- The choice of a line: an index up to the first bar, and a text. -/
def choiceOf? (line : String) : Option (Nat × String) := do
  let value ← behind? "CHOICE:" line
  let index ← indexOf? (value.toList.takeWhile (· ≠ '|'))
  let text ← (← Json.read? (String.ofList ((value.toList.dropWhile (· ≠ '|')).drop 1))).toText?
  some (index, text)

/-- What a command tells: the boundary, the state of the sandbox and where the game is saved. -/
structure Told where
  boundary : Boundary
  host : Sandbox.State
  stateOut : Option String

/-- The state of the sandbox and what is told of the file, by the last two lines. -/
def footOf? : List String → Option (Sandbox.State × String)
  | [hostLine, outLine] => do
    let document ← Json.read? (← behind? "HOST_JSON:" hostLine)
    some (← Sandbox.State.nearest? document, ← behind? "STATE_OUT:" outLine)
  | _ => none

/-- What is told of choices, behind the event. -/
def offeredOf? : List String → Option Told
  | labelLine :: promptLine :: rest => do
    let label ← behind? "LABEL:" labelLine
    let prompt ← textBehind? "PROMPT_JSON:" promptLine
    let choices ← (rest.takeWhile tellsChoice).mapM choiceOf?
    let (host, path) ← footOf? (rest.dropWhile tellsChoice)
    some ⟨.choices label prompt choices, host, some path⟩
  | _ => none

/-- What is told of the end, behind the event. -/
def endedOf? (lines : List String) : Option Told := do
  let (host, path) ← footOf? lines
  if path = "NONE" then some ⟨.finished, host, none⟩ else none

/-- What lines tell. -/
def told? : List String → Option Told
  | status :: event :: rest =>
    if status ≠ "RESULT:OK" then none
    else if event = "EVENT:CHOICES" then offeredOf? rest
    else if event = "EVENT:END" then endedOf? rest
    else none
  | _ => none

/-! ## What was told -/

theorem behind?_append (key value : String) : behind? key (key ++ value) = some value := by
  unfold behind?
  rw [String.toList_append, if_pos (List.prefix_append _ _), List.drop_left, String.ofList_toList]

theorem read?_jsonText (text : String) : Json.read? (jsonText text) = some (Json.text text) :=
  Json.read?_compact (Json.plain_text text)

theorem textBehind?_append (key text : String) : textBehind? key (key ++ jsonText text) = some text :=
  Option.bind_eq_some_iff.mpr ⟨_, behind?_append key _,
    Option.bind_eq_some_iff.mpr ⟨_, read?_jsonText text, rfl⟩⟩

/-- The line of a choice. -/
def choiceLine (choice : Nat × String) : String :=
  "CHOICE:" ++ (toString choice.1 ++ ("|" ++ jsonText choice.2))

theorem choiceLine_eq (choice : Nat × String) :
    s!"CHOICE:{choice.1}|{jsonText choice.2}" = choiceLine choice := by
  show "CHOICE:" ++ toString choice.1 ++ "|" ++ jsonText choice.2 = _
  rw [String.append_assoc, String.append_assoc]
  rfl

theorem indexOf?_toDigits (n : Nat) : indexOf? (Nat.toDigits 10 n) = some n := by
  unfold indexOf?
  rw [if_pos ⟨Nat.toDigits_ne_nil, List.all_eq_true.mpr (Decimal.allDigits_toDigits n)⟩,
    Decimal.valueOf_toDigits]

/-- A choice is read from its line: its index has no bar in it, so the first bar ends it. -/
theorem choiceOf?_choiceLine (choice : Nat × String) : choiceOf? (choiceLine choice) = some choice := by
  obtain ⟨index, text⟩ := choice
  have hchars : (toString index ++ ("|" ++ jsonText text)).toList
      = Nat.toDigits 10 index ++ '|' :: (jsonText text).toList := by
    rw [String.toList_append, String.toList_append, Json.toList_toString]
    rfl
  have hdigits : ∀ c ∈ Nat.toDigits 10 index, decide (c ≠ '|') = true := by
    intro c hc
    refine decide_eq_true ?_
    rintro rfl
    exact absurd (Decimal.allDigits_toDigits index _ hc) (by decide)
  have hbar : EndsStretch (fun c => decide (c ≠ '|')) ('|' :: (jsonText text).toList) := rfl
  have hindex : indexOf? ((toString index ++ ("|" ++ jsonText text)).toList.takeWhile (· ≠ '|'))
      = some index := by
    rw [hchars, takeWhile_stretch hdigits hbar, indexOf?_toDigits]
  have htext : Json.read? (String.ofList
      (((toString index ++ ("|" ++ jsonText text)).toList.dropWhile (· ≠ '|')).drop 1))
      = some (Json.text text) := by
    rw [hchars, dropWhile_stretch hdigits hbar, List.drop_one, List.tail_cons, String.ofList_toList]
    exact read?_jsonText text
  exact Option.bind_eq_some_iff.mpr ⟨_, behind?_append _ _, Option.bind_eq_some_iff.mpr ⟨_, hindex,
    Option.bind_eq_some_iff.mpr ⟨_, htext, rfl⟩⟩⟩

theorem tellsChoice_choiceLine (choice : Nat × String) : tellsChoice (choiceLine choice) = true := by
  unfold tellsChoice choiceLine
  rw [behind?_append]
  rfl

theorem tellsChoice_hostLine (value : String) : tellsChoice ("HOST_JSON:" ++ value) = false := by
  have hkey : ¬"CHOICE:".toList <+: ("HOST_JSON:" ++ value).toList := by
    rw [String.toList_append]
    rintro ⟨rest, hrest⟩
    cases hrest
  unfold tellsChoice behind?
  rw [if_neg hkey]
  rfl

section Told

variable {host : Sandbox.State} (hfinite : ∀ x ∈ host.numbers, Binary64.isFinite x = true)

/-- The last two lines. -/
def footLines (host : Sandbox.State) (path : String) : List String :=
  ["HOST_JSON:" ++ host.toJson.compact, "STATE_OUT:" ++ path]

include hfinite

theorem footOf?_footLines (path : String) : footOf? (footLines host path) = some (host, path) := by
  show (do
    let document ← Json.read? (← behind? "HOST_JSON:" ("HOST_JSON:" ++ host.toJson.compact))
    some (← Sandbox.State.nearest? document, ← behind? "STATE_OUT:" ("STATE_OUT:" ++ path))) = _
  rw [behind?_append, behind?_append]
  show (do
    let document ← Json.read? host.toJson.compact
    some (← Sandbox.State.nearest? document, path)) = _
  rw [Json.read?_compact host.plain_toJson]
  show (do some (← Sandbox.State.nearest? host.toJson, path)) = _
  rw [Sandbox.State.nearest?_toJson hfinite]
  rfl

theorem endedOf?_footLines : endedOf? (footLines host "NONE") = some ⟨.finished, host, none⟩ := by
  unfold endedOf?
  rw [footOf?_footLines hfinite]
  rfl

theorem offeredOf?_lines (label prompt : String) (choices : List (Nat × String)) (path : String) :
    offeredOf? (("LABEL:" ++ label) :: ("PROMPT_JSON:" ++ jsonText prompt) ::
        (choices.map choiceLine ++ footLines host path))
      = some ⟨.choices label prompt choices, host, some path⟩ := by
  have htells : ∀ line ∈ choices.map choiceLine, tellsChoice line = true :=
    List.forall_mem_map.mpr fun choice _ => tellsChoice_choiceLine choice
  have hhost : ¬tellsChoice ("HOST_JSON:" ++ host.toJson.compact) = true := by
    rw [tellsChoice_hostLine]
    exact Bool.false_ne_true
  have htaken : (choices.map choiceLine ++ footLines host path).takeWhile tellsChoice
      = choices.map choiceLine := by
    rw [List.takeWhile_append_of_pos htells]
    unfold footLines
    rw [List.takeWhile_cons_of_neg hhost, List.append_nil]
  have hleft : (choices.map choiceLine ++ footLines host path).dropWhile tellsChoice
      = footLines host path := by
    rw [List.dropWhile_append_of_pos htells]
    exact List.dropWhile_cons_of_neg hhost
  have hchoices : (choices.map choiceLine).mapM choiceOf? = some choices :=
    mapM_map_eq_self_iff.mpr fun choice _ => choiceOf?_choiceLine choice
  unfold offeredOf?
  dsimp only
  rw [behind?_append, textBehind?_append, htaken, hleft, hchoices, footOf?_footLines hfinite]
  rfl

/-- The lines that were told are read as what they tell. -/
theorem told?_boundaryLines (boundary : Boundary) (path : String) :
    let stateOut := if boundary = .finished then none else some path
    told? (boundaryLines boundary host stateOut) = some ⟨boundary, host, stateOut⟩ := by
  cases boundary with
  | finished =>
    show told? ("RESULT:OK" :: "EVENT:END" :: footLines host "NONE") = _
    unfold told?
    dsimp only
    rw [if_neg (not_not_intro rfl), if_neg (by decide), if_pos rfl]
    exact endedOf?_footLines hfinite
  | choices label prompt choices =>
    have hlines : boundaryLines (.choices label prompt choices) host (some path)
        = "RESULT:OK" :: "EVENT:CHOICES" :: ("LABEL:" ++ label) :: ("PROMPT_JSON:" ++ jsonText prompt) ::
          (choices.map choiceLine ++ footLines host path) := by
      rw [← funext choiceLine_eq]
      rfl
    show told? (boundaryLines (.choices label prompt choices) host (some path)) = _
    rw [hlines]
    unfold told?
    dsimp only
    rw [if_neg (not_not_intro rfl), if_pos rfl]
    exact offeredOf?_lines hfinite label prompt choices path

end Told

/-! ## No line end in a line -/

theorem newline_not_mem_append {a b : String} (ha : '\n' ∉ a.toList) (hb : '\n' ∉ b.toList) :
    '\n' ∉ (a ++ b).toList := by
  rw [String.toList_append, List.mem_append, not_or]
  exact ⟨ha, hb⟩

theorem newline_not_mem_jsonText (text : String) : '\n' ∉ (jsonText text).toList :=
  Json.newline_not_mem_compact (Json.plain_text text)

theorem newline_not_mem_choiceLine (choice : Nat × String) : '\n' ∉ (choiceLine choice).toList := by
  have hindex : '\n' ∉ (toString choice.1).toList := by
    rw [Json.toList_toString]
    exact fun hmem => absurd (Decimal.allDigits_toDigits choice.1 _ hmem) (by decide)
  have htext := newline_not_mem_append (show '\n' ∉ "|".toList by decide)
    (newline_not_mem_jsonText choice.2)
  exact newline_not_mem_append (by decide) (newline_not_mem_append hindex htext)

/-- No line that is told has a line end in it, if the label and the path have none. -/
theorem newline_not_mem_boundaryLines {boundary : Boundary} {stateOut : Option String}
    (hlabel : ∀ label prompt choices, boundary = .choices label prompt choices → '\n' ∉ label.toList)
    (hpath : ∀ path, stateOut = some path → '\n' ∉ path.toList) (host : Sandbox.State) :
    ∀ line ∈ boundaryLines boundary host stateOut, '\n' ∉ line.toList := by
  have hfoot : ∀ line ∈ ["HOST_JSON:" ++ host.toJson.compact, "STATE_OUT:" ++ stateOut.getD "NONE"],
      '\n' ∉ line.toList := by
    have hhost := Json.newline_not_mem_compact host.plain_toJson
    refine List.forall_mem_cons.mpr ⟨newline_not_mem_append (by decide) hhost, ?_⟩
    refine List.forall_mem_singleton.mpr (newline_not_mem_append (by decide) ?_)
    cases stateOut with
    | none => decide
    | some path => exact hpath path rfl
  unfold boundaryLines
  refine List.forall_mem_append.mpr ⟨?_, hfoot⟩
  cases boundary with
  | finished => decide
  | choices label prompt choices =>
    refine List.forall_mem_append.mpr ⟨?_, List.forall_mem_map.mpr fun choice _ => ?_⟩
    · refine List.forall_mem_cons.mpr ⟨by decide, List.forall_mem_cons.mpr ⟨by decide, ?_⟩⟩
      refine List.forall_mem_cons.mpr ⟨?_, List.forall_mem_singleton.mpr ?_⟩
      · exact newline_not_mem_append (by decide) (hlabel label prompt choices rfl)
      · exact newline_not_mem_append (by decide) (newline_not_mem_jsonText prompt)
    · rw [choiceLine_eq]
      exact newline_not_mem_choiceLine choice

/-- **What a command tells is read back.** Of any game of a program that was read, with any host, any
state of the sandbox whose numbers are finite and any path of one line: cut at the line ends, the
output is the lines of the boundary, whatever texts are in them, and these lines are read as the
boundary with its label, its prompt and each choice with its index, the state, and the path, which is
told where there is something to choose. -/
theorem told_is_read_back {strict : Bool} {sources : NameMap String} {program : Program}
    (hprogram : Program.ofSources strict sources = .ok program) {κ σ : Type} {h : Host κ σ}
    {game : Game σ} (hplays : Game.Plays h program.dialogue game) {host : Sandbox.State}
    (hfinite : ∀ x ∈ host.numbers, Binary64.isFinite x = true) {path : String}
    (hpath : '\n' ∉ path.toList) :
    let boundary := game.play.boundary
    let stateOut := if boundary = .finished then none else some path
    let lines := boundaryLines boundary host stateOut
    splitLines (outputOf (.ok lines)).text = lines ++ [""] ∧
      told? lines = some ⟨boundary, host, stateOut⟩ := by
  intro boundary stateOut lines
  have hsettled := hplays.settled (Program.filedByName_of_ofSources hprogram)
  have hlabel : ∀ label prompt choices, boundary = .choices label prompt choices →
      '\n' ∉ label.toList := by
    intro label prompt choices hboundary
    obtain ⟨view, hview, rfl⟩ := Playthrough.view_of_boundary hboundary
    exact Program.newline_not_mem_label hprogram (hsettled.declared view hview)
  have hout : ∀ told, stateOut = some told → '\n' ∉ told.toList := by
    intro told htold
    by_cases hend : boundary = .finished
    · have hnone : stateOut = none := if_pos hend
      rw [hnone] at htold
      cases htold
    · have hsome : stateOut = some path := if_neg hend
      rw [hsome] at htold
      cases htold
      exact hpath
  exact ⟨splitLines_linesText (newline_not_mem_boundaryLines hlabel hout host),
    told?_boundaryLines hfinite boundary path⟩

/-! ## Texts that look like lines -/

/-- A label whose texts try to pass for lines. -/
def trickScript : String :=
  "(label a (text \"A\\nEVENT:END\") (choice \"0|\\\"B\\\"\" a)) (start-dialogue a)"

def trickForms : List Expr := [
  .list [.symbol "label", .symbol "a", .list [.symbol "text", .text "A\nEVENT:END"],
    .list [.symbol "choice", .text "0|\"B\"", .symbol "a"]],
  .list [.symbol "start-dialogue", .symbol "a"]]

def trickDialogue : Dialogue :=
  ⟨"a", .ofList [("a", ⟨"a", "A\nEVENT:END", some [⟨"0|\"B\"", "a", none⟩], none⟩)]⟩

theorem ofSources_trickScript :
    Program.ofSources true (.ofList [("main.dlg", trickScript)]) = .ok ⟨trickDialogue, []⟩ := by
  have hread : readSource trickScript = .ok trickForms := by with_unfolding_all rfl
  refine Program.ofSources_eq_ok.mpr ⟨[trickForms], ?_, rfl⟩
  show [("main.dlg", trickScript)].mapM Program.formsOfFile = .ok [trickForms]
  rw [List.mapM_cons, Program.formsOfFile, mapError_eq_ok.mpr hread]
  rfl

theorem start_trickDialogue (s : Sandbox.State) :
    (Playthrough.start Sandbox.host trickDialogue .declared).result s
      = (.ok ⟨trickDialogue, .declared, some ⟨"a", "A\nEVENT:END", ["0|\"B\""], [0]⟩⟩, s) := by
  with_unfolding_all rfl

/-- They are told in a line each, and read as what they are. -/
theorem trick_is_read_back :
    let host : Sandbox.State := ⟨.origin, .ofList [("keys", 1)]⟩
    let boundary : Boundary := .choices "a" "A\nEVENT:END" [(0, "0|\"B\"")]
    let lines := boundaryLines boundary host (some "save.json")
    splitLines (outputOf (.ok lines)).text = lines ++ [""] ∧
      told? lines = some ⟨boundary, host, some "save.json"⟩ := by
  intro host
  have hfinite : ∀ x ∈ host.numbers, Binary64.isFinite x = true := by decide +kernel
  exact told_is_read_back ofSources_trickScript (.started (start_trickDialogue host)) hfinite
    (show '\n' ∉ "save.json".toList by decide)

end Command

end Colloquy
