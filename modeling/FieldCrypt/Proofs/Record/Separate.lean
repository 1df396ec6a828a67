import FieldCrypt.Record.Activity
import FieldCrypt.Record.Assistant
import FieldCrypt.Record.Task

/-!
# Separate fields

Two fields of a record are apart when writing one of them is nothing to the other. In a separate
layout all fields are sound and apart from each other. What such a layout leaves alone is the record
with all its texts made blank: writing a field of the layout does not change that.
-/

namespace FieldCrypt

variable {R : Type}

namespace Field

/-- Writing either field is nothing to the other one. Texts are written as many as there are
slots. -/
structure Apart (field other : Field R) : Prop where
  read_write : ∀ record texts, texts.length = (field.read record).length →
    other.read (field.write record texts) = other.read record
  read_write_other : ∀ record texts, texts.length = (other.read record).length →
    field.read (other.write record texts) = field.read record
  write_comm : ∀ record first second, first.length = (field.read record).length →
    second.length = (other.read record).length →
    other.write (field.write record first) second = field.write (other.write record second) first

theorem Apart.symm {field other : Field R} (apart : field.Apart other) : other.Apart field where
  read_write := apart.read_write_other
  read_write_other := apart.read_write
  write_comm record first second firstFits secondFits :=
    (apart.write_comm record second first secondFits firstFits).symm

/-- A single value is apart from another field when setting it is. -/
theorem apart_scalar (name : String) {get : R → Option String} {set : R → String → R}
    {other : Field R} (read_set : ∀ record text, other.read (set record text) = other.read record)
    (get_write : ∀ record texts, get (other.write record texts) = get record)
    (write_set : ∀ record text texts,
      other.write (set record text) texts = set (other.write record texts) text) :
    (scalar name get set).Apart other where
  read_write record texts _ := by
    cases texts with
    | nil => rfl
    | cons text _ => exact read_set record text
  read_write_other record texts _ := congrArg Option.toList (get_write record texts)
  write_comm record first second _ _ := by
    cases first with
    | nil => rfl
    | cons text _ => exact write_set record text second

/-- The record with nothing in the slots of a field. -/
def blank (field : Field R) (record : R) : R :=
  field.write record ((field.read record).map fun _ => "")

/-- Values in the elements of a list are sound when the list and the values in it are. -/
theorem sound_each {α : Type} (name : String) (elements : R → List α)
    (setElements : R → List α → R) {get : α → Option String} {set : α → String → α}
    (elements_set : ∀ record list, elements (setElements record list) = list)
    (set_elements : ∀ record, setElements record (elements record) = record)
    (set_set_elements : ∀ record first second,
      setElements (setElements record first) second = setElements record second)
    (get_set : ∀ element text, get (set element text) = some text)
    (set_get : ∀ element text, get element = some text → set element text = element)
    (set_set : ∀ element first second, set (set element first) second = set element second) :
    (each name (fun record => (elements record).filterMap get) fun record texts =>
      setElements record (refill get set (elements record) texts)).Sound where
  read_write record texts fits := by
    simp only [each, elements_set]
    exact filterMap_refill get_set (elements record) texts fits
  write_read record := by
    simp only [each, refill_filterMap set_get]
    exact set_elements record
  write_write record first second firstFits secondFits := by
    simp only [each, elements_set, set_set_elements]
    rw [refill_refill get_set set_set (elements record) first second firstFits secondFits]

theorem Sound.blank_write {field : Field R} (sound : field.Sound) {record : R}
    {texts : List String} (fits : texts.length = (field.read record).length) :
    field.blank (field.write record texts) = field.blank record := by
  have same : texts.map (fun _ => "") = (field.read record).map fun _ => "" := by
    rw [List.map_const', List.map_const', fits]
  rw [blank, sound.read_write record texts fits, same]
  exact sound.write_write record texts _ fits (List.length_map _)

theorem Apart.blank_write {field other : Field R} (apart : field.Apart other) {record : R}
    {texts : List String} (fits : texts.length = (field.read record).length) :
    other.blank (field.write record texts) = field.write (other.blank record) texts := by
  rw [blank, apart.read_write record texts fits]
  exact apart.write_comm record texts _ fits (List.length_map _)

theorem Apart.read_blank {field other : Field R} (apart : field.Apart other) (record : R) :
    field.read (other.blank record) = field.read record :=
  apart.read_write_other record _ (List.length_map _)

end Field

namespace Layout

/-- All fields are sound and apart from each other. -/
structure Separate (layout : Layout R) : Prop where
  sound : ∀ field ∈ layout.fields, field.Sound
  apart : layout.fields.Pairwise Field.Apart

/-- The record with nothing in any slot: what is outside the layout. -/
def blank (layout : Layout R) (record : R) : R :=
  layout.fields.foldl (fun record field => field.blank record) record

/-- Writing a field changes nothing outside the layout. -/
theorem Separate.blank_write {layout : Layout R} (separate : layout.Separate) {field : Field R}
    (member : field ∈ layout.fields) {record : R} {texts : List String}
    (fits : texts.length = (field.read record).length) :
    layout.blank (field.write record texts) = layout.blank record := by
  obtain ⟨fields⟩ := layout
  obtain ⟨sound, apart⟩ := separate
  simp only at member sound apart
  simp only [blank]
  induction fields generalizing record with
  | nil => cases member
  | cons first rest ih =>
      obtain ⟨ahead, apart⟩ := List.pairwise_cons.mp apart
      obtain ⟨soundFirst, soundRest⟩ := List.forall_mem_cons.mp sound
      simp only [List.foldl_cons]
      rcases List.mem_cons.mp member with rfl | later
      · rw [soundFirst.blank_write fits]
      · have away := (ahead field later).symm
        have fits' : texts.length = (field.read (first.blank record)).length := by
          rw [away.read_blank]
          exact fits
        calc rest.foldl (fun record field => field.blank record)
              (first.blank (field.write record texts))
          _ = rest.foldl (fun record field => field.blank record)
                (field.write (first.blank record) texts) := by rw [away.blank_write fits]
          _ = rest.foldl (fun record field => field.blank record) (first.blank record) :=
                ih fits' later soundRest apart

theorem separate_taskRequest : (Protected.layout : Layout TaskRequest).Separate where
  sound := by
    refine List.forall_mem_cons.mpr ⟨?_, List.forall_mem_singleton.mpr ?_⟩
    · refine Field.sound_scalar _ (fun _ _ => rfl) ?_ fun _ _ _ => rfl
      rintro ⟨_⟩ text rfl
      rfl
    · refine Field.sound_scalar _ (fun _ _ => rfl) ?_ fun _ _ _ => rfl
      rintro ⟨_⟩ text rfl
      rfl
  apart := by
    apply List.pairwise_pair.mpr
    refine Field.apart_scalar _ (fun _ _ => rfl) ?_ ?_
    · rintro record (_ | _) <;> rfl
    · rintro record text (_ | _) <;> rfl

theorem separate_task : (Protected.layout : Layout Task).Separate where
  sound := by
    refine List.forall_mem_cons.mpr ⟨?_, List.forall_mem_singleton.mpr ?_⟩
    · refine Field.sound_scalar _ (fun _ _ => rfl) ?_ fun _ _ _ => rfl
      rintro ⟨_⟩ text rfl
      rfl
    · refine Field.sound_scalar _ (fun _ _ => rfl) ?_ fun _ _ _ => rfl
      rintro ⟨_⟩ text rfl
      rfl
  apart := by
    apply List.pairwise_pair.mpr
    refine Field.apart_scalar _ (fun _ _ => rfl) ?_ ?_
    · rintro record (_ | _) <;> rfl
    · rintro record text (_ | _) <;> rfl

theorem separate_activity : (Protected.layout : Layout Activity).Separate where
  sound := by
    refine List.forall_mem_cons.mpr ⟨?_, List.forall_mem_cons.mpr
      ⟨?_, List.forall_mem_singleton.mpr ?_⟩⟩
    · refine Field.sound_scalar _ (fun _ _ => rfl) ?_ fun _ _ _ => rfl
      rintro ⟨_⟩ text rfl
      rfl
    · refine Field.sound_scalar _ (fun _ _ => rfl) ?_ fun _ _ _ => rfl
      rintro ⟨_⟩ text rfl
      rfl
    · refine Field.sound_each _ Activity.files (fun activity files => { activity with files })
        (fun _ _ => rfl) (fun _ => rfl) (fun _ _ _ => rfl) (fun _ _ => rfl) ?_ fun _ _ _ => rfl
      rintro ⟨_⟩ text rfl
      rfl
  apart := by
    refine List.pairwise_cons.mpr ⟨List.forall_mem_cons.mpr ⟨?_, List.forall_mem_singleton.mpr ?_⟩,
      List.pairwise_pair.mpr ?_⟩
    · refine Field.apart_scalar _ (fun _ _ => rfl) ?_ ?_
      · rintro record (_ | _) <;> rfl
      · rintro record text (_ | _) <;> rfl
    · exact Field.apart_scalar _ (fun _ _ => rfl) (fun _ _ => rfl) fun _ _ _ => rfl
    · exact Field.apart_scalar _ (fun _ _ => rfl) (fun _ _ => rfl) fun _ _ _ => rfl

theorem separate_assistantRequest : (Protected.layout : Layout AssistantRequest).Separate where
  sound := by
    refine List.forall_mem_singleton.mpr ?_
    refine Field.sound_scalar _ (fun _ _ => rfl) ?_ fun _ _ _ => rfl
    rintro ⟨_⟩ text rfl
    rfl
  apart := List.pairwise_singleton _ _

theorem separate_assistantResponse : (Protected.layout : Layout AssistantResponse).Separate where
  sound := by
    refine List.forall_mem_singleton.mpr ?_
    refine Field.sound_each _ AssistantResponse.messages
      (fun response messages => { response with messages })
      (fun _ _ => rfl) (fun _ => rfl) (fun _ _ _ => rfl) (fun _ _ => rfl) ?_ fun _ _ _ => rfl
    rintro ⟨_⟩ text rfl
    rfl
  apart := List.pairwise_singleton _ _

end Layout

end FieldCrypt
