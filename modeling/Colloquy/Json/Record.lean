import Colloquy.Json.Reader
import Colloquy.NameMap

/-!
# Taking documents apart

A record is written as an object, whose members may stand in any order, among members that nobody
reads, but not twice; or as the array of its fields in their order, without the last ones if these
have defaults. Where a record is one of several variants, it names the variant in a member `kind`.

A content that stands before the kind of its variant is kept until the kind is known, and variants
inside what was kept may be written in more ways.

Containers may be nested only so deep. Everything here takes the number of containers that may
still be opened, and refuses a document that opens more. What is never read, the value of an
unknown member, is not looked at: neither its depth, nor whether its numbers are in range and its
strings are texts.
-/

namespace Colloquy.Json

/-- How many containers may stand inside each other. -/
def depthLimit : Nat := 127

mutual

/-- Whether every part of a value could be read: numbers in range, strings texts, depth kept. -/
def isReadable (depth : Nat) : Json → Bool
  | null => true
  | bool _ => true
  | number literal => ((Numeral.ofChars? literal.toList).bind Numeral.float?).isSome
  | string value => value.isSome
  | array items => depth ≠ 0 && areReadable (depth - 1) items
  | object members => depth ≠ 0 && membersReadable (depth - 1) members

/-- `isReadable` for each item. -/
def areReadable (depth : Nat) : List Json → Bool
  | [] => true
  | item :: rest => isReadable depth item && areReadable depth rest

/-- `isReadable` for each member, names included. -/
def membersReadable (depth : Nat) : List (Option String × Json) → Bool
  | [] => true
  | (name, value) :: rest =>
    name.isSome && isReadable depth value && membersReadable depth rest

end

/-! ## Plain values -/

/-- The text of a string. -/
def toText? : Json → Option String
  | string value => value
  | _ => none

/-- The quantity of a number. -/
def toFloat? : Json → Option Float
  | number literal => (Numeral.ofChars? literal.toList).bind Numeral.float?
  | _ => none

/-- The count of a number. -/
def toNat? : Json → Option Nat
  | number literal => (Numeral.ofChars? literal.toList).bind Numeral.natural?
  | _ => none

/-- The items of an array, each read inside it. -/
def toList? {α : Type} (read : Nat → Json → Option α) : Nat → Json → Option (List α)
  | depth + 1, array items => items.mapM (read depth)
  | _, _ => none

/-- A member by the text of its name. -/
def named? (member : Option String × Json) : Option (String × Json) :=
  member.1.map fun name => (name, member.2)

/-- The members of an object as a map, each value read inside it; the last of a name stays. -/
def toMap? {α : Type} (read : Nat → Json → Option α) : Nat → Json → Option (NameMap α)
  | depth + 1, object members => do
    let entries ← members.mapM fun member => do
      let (name, value) ← named? member
      (read depth value).map fun value => (name, value)
    some (.ofList entries)
  | _, _ => none

/-- A value or null. -/
def toOption? {α : Type} (read : Json → Option α) : Json → Option (Option α)
  | null => some none
  | value => (read value).map some

/-! ## Records -/

/-- The known fields of a record. -/
structure Record where
  /-- Whether the fields were named. -/
  named : Bool
  fields : List (String × Json)

namespace Record

/-- The known fields among named members: none may stand twice. -/
def ofMembers? (names : List String) (members : List (String × Json)) : Option Record :=
  let known := members.filter (·.1 ∈ names)
  if (known.map (·.1)).Nodup then some ⟨true, known⟩ else none

/-- The fields in their order. -/
def ofItems? (names : List String) (items : List Json) : Option Record :=
  if items.length ≤ names.length then some ⟨false, names.zip items⟩ else none

/-- The record with the given fields, and how many containers may be opened inside it. -/
def ofJson? (names : List String) : Nat → Json → Option (Record × Nat)
  | depth + 1, .object members => do
    some (← ofMembers? names (← members.mapM named?), depth)
  | depth + 1, .array items => do some (← ofItems? names items, depth)
  | _, _ => none

/-- A field that has to be there. -/
def required {α : Type} (r : Record) (name : String) (read : Json → Option α) : Option α :=
  (r.fields.lookup name).bind read

/-- A field that may be null, or be left out where fields are named. -/
def optional {α : Type} (r : Record) (name : String) (read : Json → Option α) :
    Option (Option α) :=
  match r.fields.lookup name with
  | some value => toOption? read value
  | none => if r.named then some none else none

/-- A field with a default. -/
def withDefault {α : Type} (r : Record) (name : String) (default : α)
    (read : Json → Option α) : Option α :=
  match r.fields.lookup name with
  | some value => read value
  | none => some default

end Record

/-! ## Variants -/

/-- Where a value is read from: the document itself, or what was kept of it until a kind that
stands behind it was known. -/
inductive Source where
  | document
  | kept
deriving DecidableEq, Repr

/-- Whether a value is the content of a variant without fields: null, or `{}` once it was kept. -/
def isNothing : Source → Json → Bool
  | _, null => true
  | .kept, object [] => true
  | _, _ => false

/-- The name of a variant without fields: a string, or an object with one member of no content. -/
def variantName? (source : Source) (depth : Nat) : Json → Option String
  | string name => name
  | object [(name, content)] => if depth ≠ 0 && content.isNothing source then name else none
  | _ => none

/-- The kind that opens an array: a string, or the number of its place among the kinds once the
array was kept. -/
def leadingKind? (source : Source) (kinds : List String) (value : Json) : Option String :=
  match source, value with
  | _, string name => name
  | .kept, value => value.toNat?.bind fun place => kinds[place]?
  | .document, _ => none

/-- A variant with a single content, and where the content is read from. Its members are `kind` and
`value`, in either order, or it is the array of the two. A content that stands before the kind is
read to its end first, and kept. -/
def taggedContent? (kinds : List String) (source : Source) : Nat → Json →
    Option (String × Source × Json)
  | depth + 1, object members => do
    let members ← members.mapM named?
    match members.filter fun m => m.1 = "kind" || m.1 = "value" with
    | [(first, a), (second, b)] =>
      if first = "kind" ∧ second = "value" then
        (variantName? source depth a).map fun kind => (kind, source, b)
      else if first = "value" ∧ second = "kind" ∧ isReadable depth a then
        (variantName? source depth b).map fun kind => (kind, .kept, a)
      else none
    | _ => none
  | _ + 1, array [kind, content] =>
    (leadingKind? source kinds kind).map fun kind => (kind, source, content)
  | _, _ => none

/-- A variant whose fields stand beside its `kind`, or after it in an array. All of it is read to
its end, known or not, before the fields are looked at. -/
def taggedRecord? (names : String → Option (List String)) : Nat → Json →
    Option (String × Record × Nat)
  | depth + 1, object members => do
    let members ← members.mapM named?
    match members.filter (·.1 = "kind") with
    | [(_, string (some kind))] =>
      let others := members.filter (·.1 ≠ "kind")
      if others.all fun m => isReadable depth m.2 then
        some (kind, ← Record.ofMembers? (← names kind) others, depth)
      else none
    | _ => none
  | depth + 1, array (string (some kind) :: items) =>
    if items.all (isReadable depth) then
      do some (kind, ← Record.ofItems? (← names kind) items, depth)
    else none
  | _, _ => none

end Colloquy.Json
