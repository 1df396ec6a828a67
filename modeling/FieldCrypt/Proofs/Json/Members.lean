import FieldCrypt.Json.Wire
import Mathlib.Data.String.Basic

/-!
# Members of records

The object of a record has its members in increasing order of their names, and putting the members of
such an object together once more changes nothing. Each of the three readers finds in a record the
value that was written under the name it looks for.
-/

namespace FieldCrypt.Json

/-- In increasing order of names. -/
def Sorted (members : List (String × Json)) : Prop :=
  members.Pairwise fun first second => first.1 < second.1

theorem mem_insertMember {name : String} {value : Json} {members : List (String × Json)}
    {member : String × Json} (there : member ∈ insertMember name value members) :
    member = (name, value) ∨ member ∈ members := by
  induction members with
  | nil => exact .inl (List.mem_singleton.mp there)
  | cons first rest ih =>
      obtain ⟨key, held⟩ := first
      unfold insertMember at there
      split at there
      · exact (List.mem_cons.mp there).imp_right (List.mem_cons_of_mem _)
      · split at there
        · exact List.mem_cons.mp there
        · rcases List.mem_cons.mp there with rfl | later
          · exact .inr List.mem_cons_self
          · exact (ih later).imp_right (List.mem_cons_of_mem _)

theorem Sorted.insertMember {members : List (String × Json)} (sorted : Sorted members)
    (name : String) (value : Json) : Sorted (insertMember name value members) := by
  induction members with
  | nil => exact List.pairwise_singleton _ _
  | cons first rest ih =>
      obtain ⟨key, held⟩ := first
      obtain ⟨ahead, behind⟩ := List.pairwise_cons.mp sorted
      unfold Json.insertMember
      split
      · rename_i same
        subst same
        exact List.pairwise_cons.mpr ⟨ahead, behind⟩
      · rename_i differ
        split
        · rename_i less
          refine List.pairwise_cons.mpr ⟨?_, sorted⟩
          exact List.forall_mem_cons.mpr ⟨less, fun member there => less.trans (ahead member there)⟩
        · rename_i notLess
          refine List.pairwise_cons.mpr ⟨?_, ih behind⟩
          intro member there
          rcases mem_insertMember there with rfl | before
          · exact lt_of_le_of_ne (not_lt.mp notLess) differ
          · exact ahead member before

theorem sorted_foldl {members sorted : List (String × Json)} (start : Sorted sorted) :
    Sorted (members.foldl (fun sorted member => insertMember member.1 member.2 sorted) sorted) := by
  induction members generalizing sorted with
  | nil => exact start
  | cons member rest ih => exact ih (start.insertMember member.1 member.2)

theorem mem_foldl_insertMember {members sorted : List (String × Json)} {member : String × Json}
    (there : member ∈
      members.foldl (fun sorted member => insertMember member.1 member.2 sorted) sorted) :
    member ∈ members ∨ member ∈ sorted := by
  induction members generalizing sorted with
  | nil => exact .inr there
  | cons first rest ih =>
      rcases ih there with later | before
      · exact .inl (List.mem_cons_of_mem _ later)
      · rcases mem_insertMember before with rfl | held
        · exact .inl List.mem_cons_self
        · exact .inr held

/-- A record is an object in order, made of its members that have a value. -/
theorem record_sorted (members : List (String × Option Json)) :
    ∃ sorted, record members = .obj sorted ∧ Sorted sorted ∧
      ∀ member ∈ sorted, (member.1, some member.2) ∈ members := by
  refine ⟨_, rfl, sorted_foldl .nil, ?_⟩
  intro member there
  rcases mem_foldl_insertMember there with written | absurd
  · obtain ⟨⟨name, value⟩, present, same⟩ := List.mem_filterMap.mp written
    obtain ⟨value, rfl, rfl⟩ := Option.map_eq_some_iff.mp same
    exact present
  · cases absurd

theorem insertMember_of_lt {name : String} {members : List (String × Json)}
    (behind : ∀ member ∈ members, member.1 < name) (value : Json) :
    insertMember name value members = members ++ [(name, value)] := by
  induction members with
  | nil => rfl
  | cons first rest ih =>
      obtain ⟨key, held⟩ := first
      obtain ⟨less, later⟩ := List.forall_mem_cons.mp behind
      rw [insertMember, if_neg less.ne, if_neg less.asymm, ih later, List.cons_append]

theorem foldl_insertMember_of_sorted {done rest : List (String × Json)}
    (sorted : Sorted (done ++ rest)) :
    rest.foldl (fun sorted member => insertMember member.1 member.2 sorted) done = done ++ rest := by
  induction rest generalizing done with
  | nil => exact (List.append_nil done).symm
  | cons member rest ih =>
      have behind : ∀ before ∈ done, before.1 < member.1 := by
        intro before there
        exact (List.pairwise_append.mp sorted).2.2 before there member List.mem_cons_self
      rw [List.append_cons] at sorted ⊢
      rw [List.foldl_cons, insertMember_of_lt behind]
      exact ih sorted

/-- Members that are in order already stay where they are. -/
theorem Sorted.ofMembers_eq {members : List (String × Json)} (sorted : Sorted members) :
    ofMembers members = .obj members :=
  congrArg obj (foldl_insertMember_of_sorted sorted)

/-- What is made of the members of a record. -/
theorem bind_fields?_record {α : Type} {members : List (String × Option Json)}
    (distinct : (members.map Prod.fst).Nodup) (names : List String)
    (read : (String → Option Json) → Option α) :
    ((record members).fields? names).bind read = read fun name => member? name members := by
  rw [fields?_record names members distinct, Option.bind_some]

theorem member?_self (name : String) (value : Option Json) (rest : List (String × Option Json)) :
    member? name ((name, value) :: rest) = value :=
  if_pos rfl

/-- A member that is any JSON value. -/
@[simp] theorem required_member?_json (name : String) (json : Json)
    (rest : List (String × Option Json)) :
    required (fun asked => member? asked ((name, some json) :: rest)) name = some json := by
  rw [required, member?_self]
  rfl

@[simp] theorem defaulted_member?_json (name : String) (json absent : Json)
    (rest : List (String × Option Json)) :
    defaulted (fun asked => member? asked ((name, some json) :: rest)) name absent =
      some json := by
  rw [defaulted, member?_self]
  rfl

variable {α : Type} [Wire α] {name other : String}

@[simp] theorem required_member?_of_ne (differ : other ≠ name) (value : Option Json)
    (rest : List (String × Option Json)) :
    (required (fun asked => member? asked ((other, value) :: rest)) name : Option α) =
      required (fun asked => member? asked rest) name := by
  simp only [required, member?, if_neg differ]

@[simp] theorem optional_member?_of_ne (differ : other ≠ name) (value : Option Json)
    (rest : List (String × Option Json)) :
    (optional (fun asked => member? asked ((other, value) :: rest)) name : Option (Option α)) =
      optional (fun asked => member? asked rest) name := by
  simp only [optional, member?, if_neg differ]

@[simp] theorem defaulted_member?_of_ne (differ : other ≠ name) (value : Option Json)
    (rest : List (String × Option Json)) (absent : α) :
    defaulted (fun asked => member? asked ((other, value) :: rest)) name absent =
      defaulted (fun asked => member? asked rest) name absent := by
  simp only [defaulted, member?, if_neg differ]

variable [LawfulWire α]

@[simp] theorem required_member?_self (name : String) (value : α)
    (rest : List (String × Option Json)) :
    required (fun asked => member? asked ((name, some (encode value)) :: rest)) name =
      some value :=
  required_of_encode (if_pos rfl)

@[simp] theorem optional_member?_self (name : String) (value : Option α)
    (rest : List (String × Option Json)) :
    optional (fun asked => member? asked ((name, value.map encode) :: rest)) name = some value :=
  optional_of_encode (if_pos rfl)

/-- An absent value that is written as `null`. -/
@[simp] theorem optional_member?_orNull (name : String) (value : Option α)
    (rest : List (String × Option Json)) :
    optional (fun asked => member? asked ((name, some (orNull (value.map encode))) :: rest)) name =
      some value := by
  cases value with
  | none =>
      rw [optional, member?_self]
      rfl
  | some value => exact optional_of_encode (if_pos rfl)

@[simp] theorem defaulted_member?_encode (name : String) (value absent : α)
    (rest : List (String × Option Json)) :
    defaulted (fun asked => member? asked ((name, some (encode value)) :: rest)) name absent =
      some value :=
  defaulted_of_encode (if_pos rfl)

@[simp] theorem defaulted_member?_self (name : String) (items : List α)
    (rest : List (String × Option Json)) :
    defaulted (fun asked => member? asked ((name, unlessEmpty items) :: rest)) name [] =
      some items :=
  defaulted_of_unlessEmpty (if_pos rfl)

end FieldCrypt.Json
