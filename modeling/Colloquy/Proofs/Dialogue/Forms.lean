import Colloquy.Dialogue.Grammar
import Colloquy.Proofs.Action

/-!
# The forms of a label

The grammar of the forms that a label is made of, stated without the functions that read them:
`IsCode` for conditions and bodies, `IsChoice` for choices, `IsAfter` for after blocks. Each
relation pairs a form with what it declares. The compiler accepts a form when it stands in the
relation, and gives what the relation gives: `checkCode_eq_ok`, `compileChoice_eq_ok` and
`compileAfter_eq_ok`, from which `LabelDraft.add_eq_ok` is assembled.

The keywords of a choice and the parts of an after block are taken one at a time, over what was
found before them. For each of the two loops one lemma says everything that a turn can do
(`choiceKeywords_eq_ok`, `afterItems_eq_ok`); the orders in which the parts may stand follow by
running it two or three times.
-/

namespace Colloquy

/-! ## Code -/

/-- The first expression stands in the second at some depth, or is the second. -/
inductive Expr.Within : Expr → Expr → Prop
  | here (e : Expr) : Within e e
  | inside {part item : Expr} {items : List Expr} (mem : item ∈ items) (h : Within part item) :
    Within part (.list items)

/-- The head of a list is no word of the grammar, and if it is the assignment word the list is a
name and an expression behind it. -/
def IsCodeHead (form : Expr) : Prop :=
  ∀ head, form.head? = some head → head ∉ grammarWords ∧
    (head = assignmentWord → ∃ name value, form = .list [.symbol assignmentWord, .symbol name, value])

/-- Code, in which every list at any depth has a head that code may have. -/
def IsCode (e : Expr) : Prop := ∀ part, Expr.Within part e → IsCodeHead part

theorem isCode_list {items : List Expr} :
    IsCode (.list items) ↔ IsCodeHead (.list items) ∧ ∀ item ∈ items, IsCode item := by
  constructor
  · intro h
    refine ⟨h _ (.here _), ?_⟩
    intro item hitem part hpart
    exact h part (.inside hitem hpart)
  · rintro ⟨hhead, hitems⟩ part hpart
    cases hpart with
    | here => exact hhead
    | inside hitem hpart => exact hitems _ hitem part hpart

/-- What is no list is code. -/
theorem isCode_of_no_list {e : Expr} (h : e.list? = none) : IsCode e := by
  intro part hpart
  cases hpart with
  | here =>
    intro head hhead
    cases e <;> simp [Expr.head?, Expr.list?] at hhead h
  | inside => cases h

theorem head?_eq_some {form : Expr} {head : String} :
    form.head? = some head ↔ ∃ rest, form = .list (.symbol head :: rest) := by
  constructor
  · intro h
    unfold Expr.head? at h
    split at h
    · next first rest =>
      cases first with
      | symbol name =>
        cases h
        exact ⟨rest, rfl⟩
      | number | text | list => cases h
    · cases h
  · rintro ⟨rest, rfl⟩
    rfl

theorem symbol?_eq_some {e : Expr} {name : String} : e.symbol? = some name ↔ e = .symbol name := by
  cases e <;> simp [Expr.symbol?]

theorem isAssignment_iff {head : Expr} {rest : List Expr} :
    isAssignment (head :: rest) = true ↔ ∃ name value, rest = [.symbol name, value] := by
  constructor
  · intro h
    unfold isAssignment at h
    split at h
    · next name value heq =>
      cases heq
      exact ⟨name, value, rfl⟩
    · cases h
  · rintro ⟨name, value, rfl⟩
    rfl

theorem checkHead_eq_ok {label : String} {form : Expr} :
    checkHead label form = .ok () ↔ IsCodeHead form := by
  unfold checkHead IsCodeHead
  cases hhead : form.head? with
  | none => simp
  | some head =>
    obtain ⟨rest, rfl⟩ := head?_eq_some.mp hhead
    by_cases hword : head ∈ grammarWords
    · simp [hword]
    · by_cases hset : head = assignmentWord
      · rw [← hset]
        simp [hword, Expr.list?, isAssignment_iff]
      · simp [hword, hset]

mutual

/-- The check of code accepts code and nothing else. -/
theorem checkCode_eq_ok {label : String} : ∀ {e : Expr}, checkCode label e = .ok () ↔ IsCode e
  | .number _ => iff_of_true rfl (isCode_of_no_list rfl)
  | .text _ => iff_of_true rfl (isCode_of_no_list rfl)
  | .symbol _ => iff_of_true rfl (isCode_of_no_list rfl)
  | .list items => by
    rw [checkCode, check_bind_eq_ok, checkHead_eq_ok, checkCodeAll_eq_ok, isCode_list]

theorem checkCodeAll_eq_ok {label : String} :
    ∀ {es : List Expr}, checkCodeAll label es = .ok () ↔ ∀ e ∈ es, IsCode e
  | [] => by simp [checkCodeAll]
  | e :: rest => by
    rw [checkCodeAll, check_bind_eq_ok, checkCode_eq_ok, checkCodeAll_eq_ok, List.forall_mem_cons]

end

/-! ## Choices -/

/-- What may follow the text of a choice, with the target and the condition that it gives. -/
inductive IsChoiceBody : List Expr → String → Option Expr → Prop
  | target (name : String) : IsChoiceBody [.symbol name] name none
  | conditional {name : String} (condition : Expr) (hjump : name ≠ "jump") (hcond : name ≠ "cond") :
    IsChoiceBody [.symbol name, condition] name (some condition)
  | jump (name : String) : IsChoiceBody [.symbol "jump", .symbol name] name none
  | jumpCond (name : String) (condition : Expr) :
    IsChoiceBody [.symbol "jump", .symbol name, .symbol "cond", condition] name (some condition)
  | condJump (name : String) (condition : Expr) :
    IsChoiceBody [.symbol "cond", condition, .symbol "jump", .symbol name] name (some condition)

/-- A form that declares a choice. -/
inductive IsChoice : Expr → Choice → Prop
  | choice {rest : List Expr} {target : String} {condition : Option Expr} (text : String)
    (body : IsChoiceBody rest target condition) (code : ∀ e ∈ condition, IsCode e) :
    IsChoice (.list (.symbol "choice" :: .text text :: rest)) ⟨text, target, condition⟩

theorem IsChoice.exists_items {form : Expr} {choice : Choice} (h : IsChoice form choice) :
    ∃ items, form = .list (.symbol "choice" :: items) := by
  cases h
  exact ⟨_, rfl⟩

/-- The keywords of a choice end once a target is found, or go on with one that was not yet there. -/
theorem choiceKeywords_eq_ok {label text : String} {target : Option String} {condition : Option Expr}
    {rest : List Expr} {found : String × Option Expr} :
    choiceKeywords label text target condition rest = .ok found ↔
      (rest = [] ∧ target = some found.1 ∧ condition = found.2) ∨
      (∃ name more, rest = .symbol "jump" :: .symbol name :: more ∧ target = none ∧
        choiceKeywords label text (some name) condition more = .ok found) ∨
      (∃ value more, rest = .symbol "cond" :: value :: more ∧ condition = none ∧
        choiceKeywords label text target (some value) more = .ok found) := by
  constructor
  · intro h
    unfold choiceKeywords at h
    split at h
    · next found condition =>
      cases h
      exact .inl ⟨rfl, rfl, rfl⟩
    · cases h
    · cases h
    · next target condition key value more =>
      split at h
      · next hjump =>
        obtain ⟨hkey, hnone⟩ := hjump
        obtain rfl := symbol?_eq_some.mp hkey
        split at h
        · next name hname =>
          obtain rfl := symbol?_eq_some.mp hname
          exact .inr (.inl ⟨name, more, rfl, Option.isNone_iff_eq_none.mp hnone, h⟩)
        · cases h
      · split at h
        · next hcond =>
          obtain ⟨hkey, hnone⟩ := hcond
          obtain rfl := symbol?_eq_some.mp hkey
          exact .inr (.inr ⟨value, more, rfl, Option.isNone_iff_eq_none.mp hnone, h⟩)
        · cases h
  · rintro (⟨rfl, rfl, rfl⟩ | ⟨name, more, rfl, rfl, h⟩ | ⟨value, more, rfl, rfl, h⟩)
    · rfl
    · rw [choiceKeywords, if_pos ⟨rfl, rfl⟩]
      exact h
    · have hkey : (Expr.symbol "cond").symbol? ≠ some "jump" := by simp [Expr.symbol?]
      rw [choiceKeywords, if_neg fun hjump => hkey hjump.1, if_pos ⟨rfl, rfl⟩]
      exact h

theorem choiceKeywords_full {label text target : String} {condition : Expr} {rest : List Expr}
    {found : String × Option Expr} :
    choiceKeywords label text (some target) (some condition) rest = .ok found ↔
      rest = [] ∧ found = (target, some condition) := by
  rw [choiceKeywords_eq_ok]
  obtain ⟨name, value⟩ := found
  simp [eq_comm]

/-- Two keywords at most are found, in either order, and one of them is the target. -/
theorem isChoiceBody_of_keywords {label text : String} {rest : List Expr}
    {found : String × Option Expr} (h : choiceKeywords label text none none rest = .ok found) :
    IsChoiceBody rest found.1 found.2 := by
  rcases choiceKeywords_eq_ok.mp h with ⟨-, h, -⟩ | ⟨name, more, rfl, -, h⟩ | ⟨value, more, rfl, -, h⟩
  · cases h
  · rcases choiceKeywords_eq_ok.mp h with ⟨rfl, hname, hnone⟩ | ⟨_, _, -, h, -⟩ | ⟨value, _, rfl, -, h⟩
    · cases hname
      rw [← hnone]
      exact .jump _
    · cases h
    · obtain ⟨rfl, rfl⟩ := choiceKeywords_full.mp h
      exact .jumpCond _ _
  · rcases choiceKeywords_eq_ok.mp h with ⟨-, h, -⟩ | ⟨name, _, rfl, -, h⟩ | ⟨_, _, -, h, -⟩
    · cases h
    · obtain ⟨rfl, rfl⟩ := choiceKeywords_full.mp h
      exact .condJump _ _
    · cases h

theorem isKeywordForm_cons {name : String} {value : Expr} {more : List Expr} :
    isKeywordForm (.symbol name :: value :: more) = true ↔ name = "jump" ∨ name = "cond" := by
  simp [isKeywordForm, Expr.symbol?]

/-- What follows the text of a choice gives the target and the condition of the grammar. -/
theorem choiceBody_eq_ok {label text : String} {rest : List Expr} {target : String}
    {condition : Option Expr} :
    choiceBody label text rest = .ok (target, condition) ↔ IsChoiceBody rest target condition := by
  unfold choiceBody
  constructor
  · intro h
    split at h
    · exact isChoiceBody_of_keywords h
    · next hkeyword =>
      split at h
      · cases h
        exact .target _
      · next name value =>
        cases h
        rw [isKeywordForm_cons, not_or] at hkeyword
        exact .conditional _ hkeyword.1 hkeyword.2
      · cases h
  · intro h
    cases h with
    | target => rfl
    | conditional value hjump hcond =>
      rw [if_neg fun h => (isKeywordForm_cons.mp h).elim hjump hcond]
    | jump => simp [isKeywordForm, choiceKeywords, Expr.symbol?]
    | jumpCond => simp [isKeywordForm, choiceKeywords, Expr.symbol?]
    | condJump => simp [isKeywordForm, choiceKeywords, Expr.symbol?]

/-- A keyword that stands alone is the name of the target. -/
example : choiceBody "gate" "Jump" [.symbol "jump"] = .ok ("jump", none) := rfl

/-- The choice forms of the grammar are accepted, with the choices they declare, and no others. -/
theorem compileChoice_eq_ok {label : String} {items : List Expr} {choice : Choice} :
    compileChoice label items = .ok choice ↔ IsChoice (.list (.symbol "choice" :: items)) choice := by
  constructor
  · intro h
    unfold compileChoice at h
    split at h
    · next text rest =>
      obtain ⟨⟨target, condition⟩, hbody, h⟩ := bind_eq_ok.mp h
      have hchoice := IsChoice.choice text (choiceBody_eq_ok.mp hbody)
      cases condition with
      | none =>
        cases h
        exact hchoice (by simp)
      | some condition =>
        obtain ⟨hcode, h⟩ := check_bind_eq_ok.mp h
        cases h
        exact hchoice (by simpa using checkCode_eq_ok.mp hcode)
    · cases h
  · intro h
    cases h with
    | @choice rest target condition text body code =>
      refine bind_eq_ok.mpr ⟨(target, condition), choiceBody_eq_ok.mpr body, ?_⟩
      cases condition with
      | none => rfl
      | some condition =>
        exact check_bind_eq_ok.mpr ⟨checkCode_eq_ok.mpr (code condition rfl), rfl⟩

/-! ## After blocks -/

/-- A form that declares an after block. -/
inductive IsAfter : Expr → After → Prop
  | plain : IsAfter (.list [.symbol "after"]) ⟨[], none⟩
  | body {code : List Expr} (hcode : ∀ e ∈ code, IsCode e) :
    IsAfter (.list [.symbol "after", .list (.symbol "body" :: code)]) ⟨code, none⟩
  | jump (name : String) :
    IsAfter (.list [.symbol "after", .symbol "jump", .symbol name]) ⟨[], some name⟩
  | bodyJump {code : List Expr} (hcode : ∀ e ∈ code, IsCode e) (name : String) :
    IsAfter (.list [.symbol "after", .list (.symbol "body" :: code), .symbol "jump", .symbol name])
      ⟨code, some name⟩
  | jumpBody {code : List Expr} (hcode : ∀ e ∈ code, IsCode e) (name : String) :
    IsAfter (.list [.symbol "after", .symbol "jump", .symbol name, .list (.symbol "body" :: code)])
      ⟨code, some name⟩

theorem IsAfter.exists_items {form : Expr} {after : After} (h : IsAfter form after) :
    ∃ items, form = .list (.symbol "after" :: items) := by
  cases h <;> exact ⟨_, rfl⟩

/-- An after block ends, or goes on with a part that was not yet there. -/
theorem afterItems_eq_ok {label : String} {code : Option (List Expr)} {target : Option String}
    {items : List Expr} {after : After} :
    afterItems label code target items = .ok after ↔
      (items = [] ∧ after = ⟨code.getD [], target⟩) ∨
      (∃ body more, items = .list (.symbol "body" :: body) :: more ∧ code = none ∧
        (∀ e ∈ body, IsCode e) ∧ afterItems label (some body) target more = .ok after) ∨
      (∃ name more, items = .symbol "jump" :: .symbol name :: more ∧ target = none ∧
        afterItems label code (some name) more = .ok after) := by
  constructor
  · intro h
    unfold afterItems at h
    split at h
    · cases h
      exact .inl ⟨rfl, rfl⟩
    · next code target item more =>
      split at h
      · next hbody =>
        obtain ⟨hhead, hnone⟩ := hbody
        obtain ⟨body, rfl⟩ := head?_eq_some.mp hhead
        obtain ⟨hcode, h⟩ := check_bind_eq_ok.mp h
        exact .inr (.inl ⟨body, more, rfl, Option.isNone_iff_eq_none.mp hnone,
          checkCodeAll_eq_ok.mp hcode, h⟩)
      · split at h
        · next hjump =>
          obtain ⟨hkey, hnone⟩ := hjump
          obtain rfl := symbol?_eq_some.mp hkey
          split at h
          · next name rest =>
            exact .inr (.inr ⟨name, rest, rfl, Option.isNone_iff_eq_none.mp hnone, h⟩)
          · cases h
        · cases h
  · rintro (⟨rfl, rfl⟩ | ⟨body, more, rfl, rfl, hcode, h⟩ | ⟨name, more, rfl, rfl, h⟩)
    · rw [afterItems]
    · rw [afterItems.eq_def]
      exact check_bind_eq_ok.mpr ⟨checkCodeAll_eq_ok.mpr hcode, h⟩
    · have hhead : (Expr.symbol "jump").head? ≠ some "body" := by simp [Expr.head?]
      rw [afterItems.eq_def]
      exact h

theorem afterItems_full {label : String} {code : List Expr} {target : String} {items : List Expr}
    {after : After} :
    afterItems label (some code) (some target) items = .ok after ↔
      items = [] ∧ after = ⟨code, some target⟩ := by
  rw [afterItems_eq_ok]
  simp

/-- The after forms of the grammar are accepted, with the blocks they declare, and no others. -/
theorem compileAfter_eq_ok {label : String} {items : List Expr} {after : After} :
    afterItems label none none items = .ok after ↔ IsAfter (.list (.symbol "after" :: items)) after := by
  constructor
  · intro h
    rcases afterItems_eq_ok.mp h with
      ⟨rfl, rfl⟩ | ⟨body, more, rfl, -, hcode, h⟩ | ⟨name, more, rfl, -, h⟩
    · exact .plain
    · rcases afterItems_eq_ok.mp h with ⟨rfl, rfl⟩ | ⟨_, _, -, h, -⟩ | ⟨name, _, rfl, -, h⟩
      · exact .body hcode
      · cases h
      · obtain ⟨rfl, rfl⟩ := afterItems_full.mp h
        exact .bodyJump hcode name
    · rcases afterItems_eq_ok.mp h with ⟨rfl, rfl⟩ | ⟨body, _, rfl, -, hcode, h⟩ | ⟨_, _, -, h, -⟩
      · exact .jump name
      · obtain ⟨rfl, rfl⟩ := afterItems_full.mp h
        exact .jumpBody hcode name
      · cases h
  · intro h
    cases h with
    | plain => rfl
    | body hcode =>
      exact afterItems_eq_ok.mpr (.inr (.inl ⟨_, _, rfl, rfl, hcode, rfl⟩))
    | jump name => rfl
    | bodyJump hcode name =>
      exact afterItems_eq_ok.mpr (.inr (.inl ⟨_, _, rfl, rfl, hcode, rfl⟩))
    | jumpBody hcode name =>
      refine afterItems_eq_ok.mpr (.inr (.inr ⟨name, _, rfl, rfl, ?_⟩))
      exact afterItems_eq_ok.mpr (.inr (.inl ⟨_, _, rfl, rfl, hcode, rfl⟩))

end Colloquy
