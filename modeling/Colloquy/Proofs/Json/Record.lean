import Colloquy.Json.Record
import Colloquy.Proofs.Json.Number
import Colloquy.Proofs.NameMap

/-!
# Taking apart what was written

A record that was written as an object with exactly its members is taken apart into these
(`Record.ofJson?_members`), and a map into its entries (`toMap?_members`). Quantities are the one
thing that may change on the way: `reread?` is what becomes of one, nothing if it is not finite.
-/

namespace Colloquy.Json

/-! ## Members -/

theorem mapM_named? : ∀ list : List (String × Json),
    (list.map fun m => (some m.1, m.2)).mapM named? = some list
  | [] => rfl
  | m :: rest => by
    rw [List.map_cons, List.mapM_cons, mapM_named? rest]
    rfl

/-- Members of exactly these names are all known, and none stands twice. -/
theorem Record.ofMembers?_self {names : List String} {list : List (String × Json)}
    (hnames : list.map (·.1) = names) (hnodup : names.Nodup) :
    ofMembers? names list = some ⟨true, list⟩ := by
  have hknown : list.filter (·.1 ∈ names) = list := by
    refine List.filter_eq_self.mpr fun m hm => decide_eq_true ?_
    rw [← hnames]
    exact List.mem_map_of_mem hm
  unfold ofMembers?
  dsimp only
  rw [hknown, if_pos (by rw [hnames]; exact hnodup)]

/-- The record of an object that has exactly the members of these names. -/
theorem Record.ofJson?_members {names : List String} {list : List (String × Json)} {depth : Nat}
    (hnames : list.map (·.1) = names) (hnodup : names.Nodup) :
    ofJson? names (depth + 1) (.members list) = some (⟨true, list⟩, depth) := by
  show (do
    let members ← (list.map fun (m : String × Json) => (some m.1, m.2)).mapM named?
    some (← ofMembers? names members, depth)) = _
  rw [mapM_named?]
  show (do some (← ofMembers? names list, depth)) = _
  rw [ofMembers?_self hnames hnodup]
  rfl

/-- The variant of an object that names its kind and then has exactly the fields of that kind. -/
theorem taggedRecord?_members {names : String → Option (List String)} {kind : String}
    {known : List String} {fields : List (String × Json)} {depth : Nat} (hkind : names kind = some known)
    (hnames : fields.map (·.1) = known) (hnodup : ("kind" :: known).Nodup)
    (hreadable : ∀ field ∈ fields, isReadable depth field.2 = true) :
    taggedRecord? names (depth + 1) (.members (("kind", .text kind) :: fields))
      = some (kind, ⟨true, fields⟩, depth) := by
  obtain ⟨hkindless, hnodup⟩ := List.nodup_cons.mp hnodup
  have hother : ∀ field ∈ fields, field.1 ≠ "kind" := by
    intro field hfield heq
    rw [← hnames, ← heq] at hkindless
    exact hkindless (List.mem_map_of_mem hfield)
  have hkinds : (("kind", Json.text kind) :: fields).filter (·.1 = "kind") = [("kind", .text kind)] := by
    have hnone : fields.filter (·.1 = "kind") = [] := by
      rw [List.filter_eq_nil_iff]
      intro field hfield
      simpa using hother field hfield
    rw [List.filter_cons_of_pos (by simp), hnone]
  have hothers : (("kind", Json.text kind) :: fields).filter (·.1 ≠ "kind") = fields := by
    rw [List.filter_cons_of_neg (by simp), List.filter_eq_self]
    intro field hfield
    simpa using hother field hfield
  have hall : (fields.all fun field => isReadable depth field.2) = true := List.all_eq_true.mpr hreadable
  show ((((("kind", Json.text kind) :: fields).map fun (m : String × Json) => (some m.1, m.2)).mapM named?)
    >>= fun members => _) = _
  rw [mapM_named?, Option.bind_eq_bind, Option.bind_some, hkinds]
  show (if ((("kind", Json.text kind) :: fields).filter (·.1 ≠ "kind")).all fun m => isReadable depth m.2 then
    do some (kind, ← Record.ofMembers? (← names kind)
      ((("kind", Json.text kind) :: fields).filter (·.1 ≠ "kind")), depth)
    else none) = _
  rw [hothers, if_pos hall, hkind]
  show (do some (kind, ← Record.ofMembers? known fields, depth)) = _
  rw [Record.ofMembers?_self hnames hnodup]
  rfl

/-- A map that was written is read value by value. -/
theorem toMap?_members {α β : Type} (read : Nat → Json → Option β) (encode : α → Json) (depth : Nat)
    (m : NameMap α) :
    toMap? read (depth + 1) (.members (m.entries.map fun e => (e.1, encode e.2)))
      = m.mapValues? fun value => read depth (encode value) := by
  unfold NameMap.mapValues?
  show (((m.entries.map fun e => (e.1, encode e.2)).map fun (member : String × Json) =>
    (some member.1, member.2)).mapM _ >>= fun entries => some (NameMap.ofList entries)) = _
  rw [List.map_map, List.mapM_map, Option.bind_eq_bind, Option.map_eq_bind]
  rfl

/-! ## Quantities -/

/-- What a quantity is after it was written and read, if it can be read. -/
def reread? (x : Float) : Option Float := (ofFloat x).toFloat?

/-- Whether a quantity is read as it was written. -/
def ReadsBack (x : Float) : Prop := reread? x = some x

instance (x : Float) : Decidable (ReadsBack x) := inferInstanceAs (Decidable (_ = _))

/-- What is not finite is written as null, which is no quantity. -/
theorem reread?_of_not_finite {x : Float} (h : Binary64.isFinite x = false) : reread? x = none := by
  unfold reread? ofFloat
  rw [if_neg (by simp [h])]
  rfl

end Colloquy.Json
