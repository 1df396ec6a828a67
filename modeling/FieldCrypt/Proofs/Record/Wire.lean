import FieldCrypt.Proofs.Json.Text
import FieldCrypt.Record.Activity
import FieldCrypt.Record.Assistant
import FieldCrypt.Record.Task

/-!
# Records on the wire

A record is read back from the JSON that it is written as, and from the text of that JSON: its values
are texts, sizes of files and lists of such, and none of them is a double.
-/

namespace FieldCrypt

/-- A type whose values are written as plain JSON. -/
class PlainWire (α : Type) [Wire α] : Prop where
  plain_encode : ∀ value : α, (encode value : Json).Plain

export PlainWire (plain_encode)

instance : PlainWire String := ⟨.str⟩

instance : PlainWire KeyUri := ⟨fun uri => .str uri.text⟩

instance : PlainWire UInt64 where
  plain_encode n := by
    have bound := n.toNat_lt
    refine .int ?_ ?_
    · simp only [Json.leastInt]
      omega
    · simp only [Json.greatestInt]
      omega

instance {α : Type} [Wire α] [PlainWire α] : PlainWire (List α) where
  plain_encode items := by
    refine .arr ?_
    intro json there
    obtain ⟨item, -, rfl⟩ := List.mem_map.mp there
    exact plain_encode item

/-- What was written is read back from its text. -/
theorem decode?_parse?_render {α : Type} [Wire α] [LawfulWire α] [PlainWire α] (value : α) :
    (Json.parse? (encode value : Json).render).bind decode? = some value := by
  rw [(plain_encode value).parse?_render, Option.bind_some, LawfulWire.decode?_encode]

namespace Json

/-- A member is plain when it is absent or its value is. -/
def PlainMember (value : Option Json) : Prop := ∀ json ∈ value, Plain json

theorem plain_record {members : List (String × Option Json)}
    (each : ∀ member ∈ members, PlainMember member.2) : (record members).Plain := by
  obtain ⟨sorted, built, inOrder, made⟩ := record_sorted members
  rw [built]
  refine .obj ?_ inOrder
  intro member there
  exact each _ (made member there) member.2 rfl

variable {α : Type} [Wire α] [PlainWire α]

@[simp] theorem plainMember_some (value : α) : PlainMember (some (encode value)) := by
  rintro json ⟨⟩
  exact plain_encode value

@[simp] theorem plainMember_map (value : Option α) : PlainMember (value.map encode) := by
  cases value with
  | none => rintro json ⟨⟩
  | some value => exact plainMember_some value

@[simp] theorem plainMember_unlessEmpty (items : List α) : PlainMember (unlessEmpty items) := by
  unfold unlessEmpty
  split
  · rintro json ⟨⟩
  · exact plainMember_some items

end Json

open Json

instance : LawfulWire KeyUri := ⟨fun _ => rfl, fun _ => nofun⟩

instance : LawfulWire SharedFile where
  decode?_encode file := by
    refine (bind_fields?_record (by simp) _ _).trans ?_
    simp
  encode_ne_null _ := nofun

instance : PlainWire SharedFile where
  plain_encode file := by
    apply plain_record
    simp

instance : LawfulWire AssistantMessage where
  decode?_encode message := by
    refine (bind_fields?_record (by simp) _ _).trans ?_
    simp
  encode_ne_null _ := nofun

instance : PlainWire AssistantMessage where
  plain_encode message := by
    apply plain_record
    simp

instance : LawfulWire TaskRequest where
  decode?_encode task := by
    refine (bind_fields?_record (by simp) _ _).trans ?_
    simp
  encode_ne_null _ := nofun

instance : PlainWire TaskRequest where
  plain_encode task := by
    apply plain_record
    simp

instance : LawfulWire Task where
  decode?_encode task := by
    refine (bind_fields?_record (by simp) _ _).trans ?_
    simp
  encode_ne_null _ := nofun

instance : PlainWire Task where
  plain_encode task := by
    apply plain_record
    simp

instance : LawfulWire Activity where
  decode?_encode activity := by
    refine (bind_fields?_record (by simp) _ _).trans ?_
    simp
  encode_ne_null _ := nofun

instance : PlainWire Activity where
  plain_encode activity := by
    apply plain_record
    simp

instance : LawfulWire AssistantRequest where
  decode?_encode request := by
    refine (bind_fields?_record (by simp) _ _).trans ?_
    simp
  encode_ne_null _ := nofun

instance : PlainWire AssistantRequest where
  plain_encode request := by
    apply plain_record
    simp

instance : LawfulWire AssistantResponse where
  decode?_encode response := by
    refine (bind_fields?_record (by simp) _ _).trans ?_
    simp
  encode_ne_null _ := nofun

instance : PlainWire AssistantResponse where
  plain_encode response := by
    apply plain_record
    simp

end FieldCrypt
