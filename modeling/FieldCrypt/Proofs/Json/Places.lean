import FieldCrypt.Proofs.Json.Members
import Mathlib.Data.List.Forall2

/-!
# Places within a JSON value

A place is reached by steps into the members of objects and the items of lists. Two values are the
same but for some texts when they have the same places, lists of the same length and objects with
the same names at all of them, and the same values but for texts at places where these are free to
change. Objects and lists compare as their members and items do.
-/

namespace FieldCrypt.Json

/-- A step into a value. -/
inductive Place where
  | member (name : String)
  | item (index : Nat)
  deriving DecidableEq, Repr

/-- The value that these steps lead to, one after another. -/
def at? : List Place → Json → Option Json
  | [], json => some json
  | .member name :: rest, .obj members => (find? name members).bind (at? rest)
  | .item index :: rest, .arr items => items[index]?.bind (at? rest)
  | _ :: _, _ => none

/-- How a step is spelled behind others. -/
def Place.spell : Place → String
  | member name => "." ++ name
  | item _ => "[]"

/-- How a field is named whose values are at such places, all items of a list alike. -/
def spell : List Place → String
  | .member name :: rest => name ++ String.join (rest.map Place.spell)
  | places => String.join (places.map Place.spell)

example (index : Nat) :
    spell [.member "files", .item index, .member "displayName"] = "files[].displayName" := rfl

/-- What the value at a place may become: nothing changes but a text that is not empty, at a place
that is free to change. What is within a list or an object is at other places. -/
inductive Kept (free : Prop) : Json → Json → Prop where
  | same (json : Json) : Kept free json json
  | text {before : String} (may : free) (full : before ≠ "") (after : String) :
      Kept free (.str before) (.str after)
  | list {before after : List Json} (lengths : after.length = before.length) :
      Kept free (.arr before) (.arr after)
  | object {before after : List (String × Json)}
      (names : after.map Prod.fst = before.map Prod.fst) : Kept free (.obj before) (.obj after)

/-- The same value but for texts at places that are free to change. -/
def Reworded (free : List Place → Prop) (before after : Json) : Prop :=
  ∀ places, Option.Rel (Kept (free places)) (before.at? places) (after.at? places)

variable {free wider : List Place → Prop} {before after : Json}

theorem Kept.trans {free : Prop} {first second third : Json} (kept : Kept free first second)
    (further : Kept free second third) : Kept free first third := by
  cases kept with
  | same => exact further
  | text may full =>
      cases further with
      | same => exact .text may full _
      | text => exact .text may full _
  | list lengths =>
      cases further with
      | same => exact .list lengths
      | list further => exact .list (further.trans lengths)
  | object names =>
      cases further with
      | same => exact .object names
      | object further => exact .object (further.trans names)

namespace Reworded

theorem refl (free : List Place → Prop) (json : Json) : Reworded free json json := by
  intro places
  cases json.at? places with
  | none => exact .none
  | some held => exact .some (.same held)

theorem trans {first second third : Json} (reworded : Reworded free first second)
    (further : Reworded free second third) : Reworded free first third := by
  intro places
  have here := reworded places
  have there := further places
  generalize first.at? places = one at *
  generalize second.at? places = two at *
  generalize third.at? places = three at *
  cases here with
  | none => exact there
  | some kept =>
      cases there with
      | some further => exact .some (kept.trans further)

theorem mono (within : ∀ places, free places → wider places)
    (reworded : Reworded free before after) : Reworded wider before after := by
  intro places
  have here := reworded places
  generalize before.at? places = one at *
  generalize after.at? places = two at *
  cases here with
  | none => exact .none
  | some kept =>
      refine .some ?_
      cases kept with
      | same => exact .same _
      | text may full after => exact .text (within places may) full after
      | list lengths => exact .list lengths
      | object names => exact .object names

/-- Another text for one that is not empty. -/
theorem str {before : String} (may : free []) (full : before ≠ "") (after : String) :
    Reworded free (.str before) (.str after) := by
  rintro (_ | ⟨_ | _, _⟩)
  · exact .some (.text may full after)
  · exact .none
  · exact .none

/-- What is within reworded parts, if they are there. -/
theorem bind {inner : List Place → Prop} {first second : Option Json}
    (part : Option.Rel (Reworded inner) first second) (places : List Place) :
    Option.Rel (Kept (inner places)) (first.bind (at? places)) (second.bind (at? places)) := by
  cases part with
  | none => exact .none
  | some reworded => exact reworded places

theorem getElem? {first second : List Json} (each : List.Forall₂ (Reworded free) first second)
    (index : Nat) : Option.Rel (Reworded free) first[index]? second[index]? := by
  induction each generalizing index with
  | nil => exact .none
  | cons reworded _ ih =>
      cases index with
      | zero => exact .some reworded
      | succ index => exact ih index

/-- A list of reworded items. -/
theorem arr {first second : List Json} {inner : List Place → Prop}
    (each : List.Forall₂ (Reworded inner) first second)
    (within : ∀ index places, inner places → free (.item index :: places)) :
    Reworded free (.arr first) (.arr second) := by
  rintro (_ | ⟨_ | index, places⟩)
  · exact .some (.list each.length_eq.symm)
  · exact .none
  · exact bind (getElem? (each.imp fun _ _ reworded => reworded.mono (within index)) index) places

theorem obj {first second : List (String × Json)}
    (each : ∀ name, Option.Rel (Reworded fun places => free (.member name :: places))
      (find? name first) (find? name second))
    (names : second.map Prod.fst = first.map Prod.fst) :
    Reworded free (.obj first) (.obj second) := by
  rintro (_ | ⟨name | _, places⟩)
  · exact .some (.object names)
  · exact bind (each name) places
  · exact .none

end Reworded

/-- Where a member goes depends on the names alone. -/
theorem names_insertMember {first second : List (String × Json)}
    (names : second.map Prod.fst = first.map Prod.fst) (name : String) (value value' : Json) :
    (insertMember name value' second).map Prod.fst =
      (insertMember name value first).map Prod.fst := by
  induction first generalizing second with
  | nil =>
      obtain rfl := List.map_eq_nil_iff.mp names
      rfl
  | cons member rest ih =>
      obtain ⟨⟨key, _⟩, rest', rfl, rfl, later⟩ := List.map_eq_cons_iff.mp names
      unfold insertMember
      split
      · exact congrArg (name :: ·) later
      · split
        · exact congrArg (name :: member.1 :: ·) later
        · exact congrArg (member.1 :: ·) (ih later)

theorem names_foldl {first second sorted sorted' : List (String × Json)}
    (names : second.map Prod.fst = first.map Prod.fst)
    (start : sorted'.map Prod.fst = sorted.map Prod.fst) :
    (second.foldl (fun sorted member =>
        insertMember member.1 member.2 sorted) sorted').map Prod.fst =
      (first.foldl (fun sorted member => insertMember member.1 member.2 sorted) sorted).map
        Prod.fst := by
  induction first generalizing second sorted sorted' with
  | nil =>
      obtain rfl := List.map_eq_nil_iff.mp names
      exact start
  | cons member rest ih =>
      obtain ⟨member', rest', rfl, same, later⟩ := List.map_eq_cons_iff.mp names
      rw [List.foldl_cons, List.foldl_cons, same]
      exact ih later (names_insertMember start _ _ _)

/-- A member as it was written, and as it is written now. -/
def MemberReworded (free : List Place → Prop) (first second : String × Option Json) : Prop :=
  second.1 = first.1 ∧
    Option.Rel (Reworded fun places => free (.member first.1 :: places)) first.2 second.2

variable {first second : List (String × Option Json)}

theorem member?_reworded (each : List.Forall₂ (MemberReworded free) first second) (name : String) :
    Option.Rel (Reworded fun places => free (.member name :: places)) (member? name first)
      (member? name second) := by
  induction each with
  | nil => exact .none
  | @cons member member' rest rest' here _ ih =>
      obtain ⟨key, value⟩ := member
      obtain ⟨_, value'⟩ := member'
      obtain ⟨rfl, reworded⟩ := here
      unfold member?
      split
      · rename_i same
        subst same
        exact reworded
      · exact ih

theorem names_reworded (each : List.Forall₂ (MemberReworded free) first second) :
    second.map Prod.fst = first.map Prod.fst ∧
      (second.filterMap fun member => member.2.map fun value => (member.1, value)).map Prod.fst =
        (first.filterMap fun member => member.2.map fun value => (member.1, value)).map
          Prod.fst := by
  induction each with
  | nil => exact ⟨rfl, rfl⟩
  | @cons member member' rest rest' here _ ih =>
      obtain ⟨name, value⟩ := member
      obtain ⟨_, value'⟩ := member'
      obtain ⟨rfl, reworded⟩ := here
      refine ⟨congrArg (_ :: ·) ih.1, ?_⟩
      cases reworded with
      | none => exact ih.2
      | some _ => exact congrArg (_ :: ·) ih.2

/-- A record is reworded when its members are. -/
theorem Reworded.record (each : List.Forall₂ (MemberReworded free) first second)
    (distinct : (first.map Prod.fst).Nodup) :
    Reworded free (Json.record first) (Json.record second) := by
  obtain ⟨names, present⟩ := names_reworded each
  obtain ⟨sorted, built, found⟩ := exists_record first distinct
  obtain ⟨sorted', built', found'⟩ := exists_record second (names ▸ distinct)
  rw [built, built']
  apply Reworded.obj
  · intro name
    rw [found, found']
    exact member?_reworded each name
  · obtain rfl := Json.obj.inj built
    obtain rfl := Json.obj.inj built'
    exact names_foldl present rfl

/-- A record with another value for one of its members. -/
theorem Reworded.set {members : List (String × Option Json)} {index : Nat} {name : String}
    {value value' : Option Json} (there : members[index]? = some (name, value))
    (here : Option.Rel (Reworded fun places => free (.member name :: places)) value value')
    (distinct : (members.map Prod.fst).Nodup) :
    Reworded free (.record members) (.record (members.set index (name, value'))) := by
  refine Reworded.record ?_ distinct
  clear distinct
  have same (member : String × Option Json) : MemberReworded free member member := by
    obtain ⟨name, _ | json⟩ := member
    · exact ⟨rfl, .none⟩
    · exact ⟨rfl, .some (.refl _ json)⟩
  induction members generalizing index with
  | nil => cases there
  | cons member rest ih =>
      cases index with
      | zero =>
          obtain rfl := Option.some.inj there
          exact .cons ⟨rfl, here⟩ (List.forall₂_same.mpr fun member _ => same member)
      | succ index => exact .cons (same member) (ih there)

/-- Lists that are left out when they are empty. -/
theorem reworded_unlessEmpty {α : Type} [Wire α] {items items' : List α}
    {inner : List Place → Prop}
    (each : List.Forall₂ (fun item item' => Reworded inner (encode item) (encode item')) items
      items')
    (within : ∀ index places, inner places → free (.item index :: places)) :
    Option.Rel (Reworded free) (unlessEmpty items) (unlessEmpty items') := by
  cases each with
  | nil => exact .none
  | cons first rest =>
      refine .some (Reworded.arr ?_ within)
      rw [List.forall₂_map_left_iff, List.forall₂_map_right_iff]
      exact .cons first rest

/-- The object with a member added, or put in the place of the one that has its name. -/
def put : Json → String → Json → Json
  | .obj members, name, value => .obj (insertMember name value members)
  | json, _, _ => json

theorem insertMember_insertMember (name : String) (first second : Json)
    (members : List (String × Json)) :
    insertMember name second (insertMember name first members) =
      insertMember name second members := by
  induction members with
  | nil => exact if_pos rfl
  | cons member rest ih =>
      obtain ⟨key, held⟩ := member
      by_cases same : key = name
      · simp [insertMember, same]
      · by_cases less : name < key
        · simp [insertMember, same, less]
        · simp [insertMember, same, less, ih]

/-- The last member of a record is put in. -/
theorem record_put (members : List (String × Option Json)) (name : String) (old : Option Json)
    (value : Json) :
    (record (members ++ [(name, old)])).put name value =
      record (members ++ [(name, some value)]) := by
  cases old with
  | none => simp [record, ofMembers, put]
  | some held => simp [record, ofMembers, put, insertMember_insertMember]

end FieldCrypt.Json
