import FieldCrypt.Proofs.Record.Separate
import FieldCrypt.Proofs.Record.Wire

/-!
# Kinds of records

What every type of records has in common: a separate layout, a place for the URL of the key that is
none of the layout's slots, and a JSON form that is read back. `RecordKind` names the types, so that
a statement can be about a record of any kind.
-/

namespace FieldCrypt

variable {R : Type}

/-- Fields are separate, a record has the URL that it was stamped with, and writing a field leaves
the URL alone. -/
class LawfulProtected (R : Type) [Protected R] : Prop where
  separate : (Protected.layout : Layout R).Separate
  keyUrl_stamp : ∀ (record : R) uri, Protected.keyUrl (Protected.stamp record uri) = some uri
  keyUrl_write : ∀ field ∈ (Protected.layout : Layout R).fields, ∀ record texts,
    Protected.keyUrl (field.write record texts) = Protected.keyUrl record

export LawfulProtected (separate keyUrl_stamp keyUrl_write)

/-- The URL is outside the layout. -/
theorem keyUrl_eq_of_blank [Protected R] [LawfulProtected R] {first second : R}
    (same : (Protected.layout : Layout R).blank first = Protected.layout.blank second) :
    Protected.keyUrl first = Protected.keyUrl second := by
  have kept (fields : List (Field R)) (record : R)
      (write : ∀ field ∈ fields, ∀ record texts,
        Protected.keyUrl (field.write record texts) = Protected.keyUrl record) :
      Protected.keyUrl (fields.foldl (fun record field => field.blank record) record) =
        Protected.keyUrl record := by
    induction fields generalizing record with
    | nil => rfl
    | cons field rest ih =>
        obtain ⟨here, later⟩ := List.forall_mem_cons.mp write
        exact (ih (field.blank record) later).trans (here record _)
  calc Protected.keyUrl first
    _ = Protected.keyUrl ((Protected.layout : Layout R).blank first) :=
          (kept _ first keyUrl_write).symm
    _ = Protected.keyUrl ((Protected.layout : Layout R).blank second) := by rw [same]
    _ = Protected.keyUrl second := kept _ second keyUrl_write

instance : LawfulProtected TaskRequest where
  separate := Layout.separate_taskRequest
  keyUrl_stamp _ _ := rfl
  keyUrl_write := by
    refine List.forall_mem_cons.mpr ⟨?_, List.forall_mem_singleton.mpr ?_⟩
    · rintro record (_ | _) <;> rfl
    · rintro record (_ | _) <;> rfl

instance : LawfulProtected Task where
  separate := Layout.separate_task
  keyUrl_stamp _ _ := rfl
  keyUrl_write := by
    refine List.forall_mem_cons.mpr ⟨?_, List.forall_mem_singleton.mpr ?_⟩
    · rintro record (_ | _) <;> rfl
    · rintro record (_ | _) <;> rfl

instance : LawfulProtected Activity where
  separate := Layout.separate_activity
  keyUrl_stamp _ _ := rfl
  keyUrl_write := by
    refine List.forall_mem_cons.mpr ⟨?_, List.forall_mem_cons.mpr
      ⟨?_, List.forall_mem_singleton.mpr ?_⟩⟩
    · rintro record (_ | _) <;> rfl
    · rintro record (_ | _) <;> rfl
    · exact fun _ _ => rfl

instance : LawfulProtected AssistantRequest where
  separate := Layout.separate_assistantRequest
  keyUrl_stamp _ _ := rfl
  keyUrl_write := by
    refine List.forall_mem_singleton.mpr ?_
    rintro record (_ | _) <;> rfl

instance : LawfulProtected AssistantResponse where
  separate := Layout.separate_assistantResponse
  keyUrl_stamp _ _ := rfl
  keyUrl_write := List.forall_mem_singleton.mpr fun _ _ => rfl

/-- The types of records that services handle. -/
inductive RecordKind where
  | taskRequest | task | activity | assistantRequest | assistantResponse
  deriving DecidableEq, Repr

namespace RecordKind

/-- The records of a kind. -/
def Record : RecordKind → Type
  | taskRequest => TaskRequest
  | task => Task
  | activity => Activity
  | assistantRequest => AssistantRequest
  | assistantResponse => AssistantResponse

instance : (kind : RecordKind) → Protected kind.Record
  | taskRequest => inferInstanceAs (Protected TaskRequest)
  | task => inferInstanceAs (Protected Task)
  | activity => inferInstanceAs (Protected Activity)
  | assistantRequest => inferInstanceAs (Protected AssistantRequest)
  | assistantResponse => inferInstanceAs (Protected AssistantResponse)

instance : (kind : RecordKind) → LawfulProtected kind.Record
  | taskRequest => inferInstanceAs (LawfulProtected TaskRequest)
  | task => inferInstanceAs (LawfulProtected Task)
  | activity => inferInstanceAs (LawfulProtected Activity)
  | assistantRequest => inferInstanceAs (LawfulProtected AssistantRequest)
  | assistantResponse => inferInstanceAs (LawfulProtected AssistantResponse)

instance : (kind : RecordKind) → Wire kind.Record
  | taskRequest => inferInstanceAs (Wire TaskRequest)
  | task => inferInstanceAs (Wire Task)
  | activity => inferInstanceAs (Wire Activity)
  | assistantRequest => inferInstanceAs (Wire AssistantRequest)
  | assistantResponse => inferInstanceAs (Wire AssistantResponse)

instance : (kind : RecordKind) → LawfulWire kind.Record
  | taskRequest => inferInstanceAs (LawfulWire TaskRequest)
  | task => inferInstanceAs (LawfulWire Task)
  | activity => inferInstanceAs (LawfulWire Activity)
  | assistantRequest => inferInstanceAs (LawfulWire AssistantRequest)
  | assistantResponse => inferInstanceAs (LawfulWire AssistantResponse)

instance : (kind : RecordKind) → PlainWire kind.Record
  | taskRequest => inferInstanceAs (PlainWire TaskRequest)
  | task => inferInstanceAs (PlainWire Task)
  | activity => inferInstanceAs (PlainWire Activity)
  | assistantRequest => inferInstanceAs (PlainWire AssistantRequest)
  | assistantResponse => inferInstanceAs (PlainWire AssistantResponse)

end RecordKind

end FieldCrypt
