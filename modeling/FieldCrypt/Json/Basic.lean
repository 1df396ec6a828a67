import FieldCrypt.Json.Binary64

/-!
# JSON values

The value type, member lists with their lookup, and the builder `Json.record` that writes the
members of a record in increasing order of their names and leaves out those without a value.
-/

namespace FieldCrypt

/-- A JSON value. An integer and a double are different values even when they are equal numbers. -/
inductive Json where
  | null
  | bool (value : Bool)
  | int (value : Int)
  | real (value : Binary64)
  | str (value : String)
  | arr (items : List Json)
  | obj (members : List (String × Json))
  deriving Inhabited

namespace Json

/-- The value of the first member of that name. -/
def find? (name : String) : List (String × Json) → Option Json
  | [] => none
  | (key, value) :: rest => if key = name then some value else find? name rest

@[simp] theorem find?_nil (name : String) : find? name [] = none := rfl

theorem find?_cons (name key : String) (value : Json) (rest : List (String × Json)) :
    find? name ((key, value) :: rest) = if key = name then some value else find? name rest := rfl

/-- Put a member in its place by name, replacing the member that has the name already. Names are in
increasing order of their code points, which is the order of their encoded bytes. -/
def insertMember (name : String) (value : Json) : List (String × Json) → List (String × Json)
  | [] => [(name, value)]
  | (key, held) :: rest =>
    if key = name then (name, value) :: rest
    else if name < key then (name, value) :: (key, held) :: rest
    else (key, held) :: insertMember name value rest

theorem find?_insertMember (name other : String) (value : Json) (members : List (String × Json)) :
    find? other (insertMember name value members) =
      if name = other then some value else find? other members := by
  induction members with
  | nil => rfl
  | cons member rest ih =>
    obtain ⟨key, held⟩ := member
    unfold insertMember
    split
    · rename_i same
      subst same
      by_cases h : key = other <;> simp [find?_cons, h]
    · rename_i differ
      split
      · rw [find?_cons]
      · rw [find?_cons, ih, find?_cons]
        by_cases h : key = other
        · subst h
          simp [Ne.symm differ]
        · simp [h]

/-- The object with these members, the last one counting where a name is repeated. -/
def ofMembers (members : List (String × Json)) : Json :=
  .obj (members.foldl (fun sorted member => insertMember member.1 member.2 sorted) [])

/-- The object of a record: members without a value are left out. -/
def record (members : List (String × Option Json)) : Json :=
  ofMembers (members.filterMap fun member => member.2.map fun value => (member.1, value))

/-- The value that a list of optional members has for a name. -/
def member? (name : String) : List (String × Option Json) → Option Json
  | [] => none
  | (key, value) :: rest => if key = name then value else member? name rest

theorem find?_of_not_mem {name : String} {members : List (String × Json)}
    (missing : name ∉ members.map Prod.fst) : find? name members = none := by
  induction members with
  | nil => rfl
  | cons member rest ih =>
    simp only [List.map_cons, List.mem_cons, not_or] at missing
    rw [find?_cons, if_neg (Ne.symm missing.1), ih missing.2]

theorem find?_foldl_insertMember (name : String) (members sorted : List (String × Json))
    (distinct : (members.map Prod.fst).Nodup) :
    find? name (members.foldl (fun sorted member => insertMember member.1 member.2 sorted) sorted) =
      (find? name members).or (find? name sorted) := by
  induction members generalizing sorted with
  | nil => simp
  | cons member rest ih =>
    obtain ⟨key, value⟩ := member
    simp only [List.map_cons, List.nodup_cons] at distinct
    rw [List.foldl_cons, ih _ distinct.2, find?_insertMember, find?_cons]
    by_cases h : key = name
    · subst h
      simp [find?_of_not_mem distinct.1]
    · simp [h]

theorem member?_of_not_mem {name : String} {members : List (String × Option Json)}
    (missing : name ∉ members.map Prod.fst) : member? name members = none := by
  induction members with
  | nil => rfl
  | cons member rest ih =>
    simp only [List.map_cons, List.mem_cons, not_or] at missing
    rw [member?, if_neg (Ne.symm missing.1), ih missing.2]

theorem find?_filterMap (name : String) (members : List (String × Option Json))
    (distinct : (members.map Prod.fst).Nodup) :
    find? name (members.filterMap fun member => member.2.map fun value => (member.1, value)) =
      member? name members := by
  induction members with
  | nil => rfl
  | cons member rest ih =>
    obtain ⟨key, value⟩ := member
    simp only [List.map_cons, List.nodup_cons] at distinct
    cases value with
    | none =>
      rw [List.filterMap_cons_none rfl, ih distinct.2, member?]
      by_cases h : key = name
      · subst h
        simp [member?_of_not_mem distinct.1]
      · simp [h]
    | some value =>
      simp only [List.filterMap_cons, Option.map_some]
      rw [find?_cons, ih distinct.2, member?]

theorem nodup_filterMap {members : List (String × Option Json)}
    (distinct : (members.map Prod.fst).Nodup) :
    ((members.filterMap fun member => member.2.map fun value => (member.1, value)).map
      Prod.fst).Nodup := by
  refine List.Nodup.sublist ?_ distinct
  clear distinct
  induction members with
  | nil => exact .slnil
  | cons member rest ih =>
    obtain ⟨key, value⟩ := member
    cases value with
    | none => exact .cons _ ih
    | some value => exact .cons_cons _ ih

/-- A record has for every name the value that it was built with. -/
theorem exists_record (members : List (String × Option Json))
    (distinct : (members.map Prod.fst).Nodup) :
    ∃ sorted, record members = .obj sorted ∧ ∀ name, find? name sorted = member? name members :=
  ⟨_, rfl, fun name => by
    rw [find?_foldl_insertMember _ _ _ (nodup_filterMap distinct), find?_filterMap _ _ distinct]
    simp⟩

/-- Write an optional value, an absent one as `null`. -/
def orNull (value : Option Json) : Json := value.getD .null

end Json

end FieldCrypt
