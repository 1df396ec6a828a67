import FieldCrypt.Proofs.Json.Places
import FieldCrypt.Proofs.Record.Exact
import FieldCrypt.Proofs.Record.Kind

/-!
# What encryption changes on the wire

Texts that are put back show on the wire at the places that are named by the fields of the layout,
and only where a text stood that was not empty. A field shows there when its value is a member of
the record, or of each element of a list in it; that all fields of a layout do is carried over,
field by field, to whatever subset of texts is put back.
-/

namespace FieldCrypt

open Json (Reworded)

variable {R : Type}

/-- A text that may stand in a slot afterwards: no text is written where there was none. -/
def Rewords (before after : String) : Prop := before = "" → after = ""

/-- The places named by the fields of a layout. -/
def Layout.Names (layout : Layout R) (places : List Json.Place) : Prop :=
  Json.spell places ∈ layout.names

namespace Field

/-- Writing a field shows on the wire at these places only. -/
def Shows [Wire R] (field : Field R) (free : List Json.Place → Prop) : Prop :=
  ∀ record texts, List.Forall₂ Rewords (field.read record) texts →
    Reworded free (encode record) (encode (field.write record texts))

/-- A single value that is a member of the record. -/
theorem shows_scalar [Wire R] (name : String) {get : R → Option String} {set : R → String → R}
    {free : List Json.Place → Prop} {members : R → List (String × Option Json)} (index : Nat)
    {member : String} (written : ∀ record, encode record = Json.record (members record))
    (distinct : ∀ record, ((members record).map Prod.fst).Nodup)
    (there : ∀ record, (members record)[index]? = some (member, (get record).map encode))
    (members_set : ∀ record text,
      members (set record text) = (members record).set index (member, some (encode text)))
    (named : free [.member member]) : (scalar name get set).Shows free := by
  intro record texts fits
  have slots : List.Forall₂ Rewords (get record).toList texts := fits
  have here := there record
  cases held : get record with
  | none =>
      rw [held] at slots
      cases slots
      exact .refl _ _
  | some before =>
      rw [held] at slots here
      cases slots with
      | @cons _ after _ _ rewords rest =>
          cases rest
          change Reworded free (encode record) (encode (set record after))
          rw [written record, written (set record after), members_set]
          refine Reworded.set here (.some ?_) (distinct record)
          by_cases empty : before = ""
          · rw [empty, rewords empty]
            exact .refl _ _
          · exact .str named empty after

/-- Values in elements are put back one by one. -/
theorem reworded_refill {α : Type} [Wire α] {name : String} {get : α → Option String}
    {set : α → String → α} {inner : List Json.Place → Prop}
    (shows : (scalar name get set).Shows inner)
    (elements : List α) {texts : List String}
    (fits : List.Forall₂ Rewords (elements.filterMap get) texts) :
    List.Forall₂ (fun element element' => Reworded inner (encode element) (encode element'))
      elements (refill get set elements texts) := by
  induction elements generalizing texts with
  | nil => exact .nil
  | cons element rest ih =>
      cases held : get element with
      | none =>
          rw [List.filterMap_cons_none held] at fits
          simp only [refill, held]
          exact .cons (.refl _ _) (ih fits)
      | some before =>
          rw [List.filterMap_cons_some held] at fits
          cases fits with
          | @cons _ after _ _ rewords fits =>
              have here : List.Forall₂ Rewords ((scalar name get set).read element) [after] := by
                simp only [scalar, held]
                exact .cons rewords .nil
              simp only [refill, held]
              exact .cons (shows element [after] here) (ih fits)

/-- A value in each element of a list that is a member of the record. -/
theorem shows_each [Wire R] {α : Type} [Wire α] (name : String) {elementName : String}
    {elements : R → List α} (setElements : R → List α → R) {get : α → Option String}
    {set : α → String → α} {free inner : List Json.Place → Prop}
    {members : R → List (String × Option Json)} (index : Nat) {member : String}
    (written : ∀ record, encode record = Json.record (members record))
    (distinct : ∀ record, ((members record).map Prod.fst).Nodup)
    (there : ∀ record,
      (members record)[index]? = some (member, Json.unlessEmpty (elements record)))
    (members_set : ∀ record list, members (setElements record list) =
      (members record).set index (member, Json.unlessEmpty list))
    (shows : (scalar elementName get set).Shows inner)
    (named : ∀ item places, inner places → free (.member member :: .item item :: places)) :
    (each name (fun record => (elements record).filterMap get) fun record texts =>
      setElements record (refill get set (elements record) texts)).Shows free := by
  intro record texts fits
  change Reworded free (encode record)
    (encode (setElements record (refill get set (elements record) texts)))
  rw [written record, written (setElements record _), members_set]
  refine Reworded.set (there record) ?_ (distinct record)
  exact Json.reworded_unlessEmpty (reworded_refill shows (elements record) fits) named

end Field

/-- A type of records whose layout names the places where its fields show on the wire, and whose
stamp is its member `encryptionKeyUrl`. -/
class ShownProtected (R : Type) [Protected R] [Wire R] : Prop where
  shows : ∀ field ∈ (Protected.layout : Layout R).fields,
    field.Shows (Protected.layout : Layout R).Names
  encode_stamp : ∀ (record : R) (uri : KeyUri), (encode (Protected.stamp record uri) : Json) =
    (encode record : Json).put "encryptionKeyUrl" (encode uri)

export ShownProtected (shows encode_stamp)

/-- The members of a task that is sent in, as it is written. -/
def TaskRequest.members (task : TaskRequest) : List (String × Option Json) := [
  ("title", task.title.map encode),
  ("notes", task.notes.map encode),
  ("dueDate", task.dueDate.map encode),
  ("status", task.status.map encode),
  ("encryptionKeyUrl", task.encryptionKeyUrl.map encode)]

instance : ShownProtected TaskRequest where
  shows := by
    have written (task : TaskRequest) : encode task = Json.record task.members := rfl
    have distinct (task : TaskRequest) : (task.members.map Prod.fst).Nodup := by
      simp [TaskRequest.members]
    refine List.forall_mem_cons.mpr ⟨?_, List.forall_mem_singleton.mpr ?_⟩
    · exact Field.shows_scalar "title" 0 written distinct (fun _ => rfl) (fun _ _ => rfl) (.head _)
    · exact Field.shows_scalar "notes" 1 written distinct (fun _ => rfl) (fun _ _ => rfl)
        (.tail _ (.head _))
  encode_stamp task uri := (Json.record_put task.members.dropLast _ _ _).symm

/-- The members of a task that is kept, as it is written. -/
def Task.members (task : Task) : List (String × Option Json) := [
  ("id", some (encode task.id)),
  ("title", task.title.map encode),
  ("notes", task.notes.map encode),
  ("dueDate", task.dueDate.map encode),
  ("status", task.status.map encode),
  ("encryptionKeyUrl", task.encryptionKeyUrl.map encode)]

instance : ShownProtected Task where
  shows := by
    have written (task : Task) : encode task = Json.record task.members := rfl
    have distinct (task : Task) : (task.members.map Prod.fst).Nodup := by
      simp [Task.members]
    refine List.forall_mem_cons.mpr ⟨?_, List.forall_mem_singleton.mpr ?_⟩
    · exact Field.shows_scalar "title" 1 written distinct (fun _ => rfl) (fun _ _ => rfl) (.head _)
    · exact Field.shows_scalar "notes" 2 written distinct (fun _ => rfl) (fun _ _ => rfl)
        (.tail _ (.head _))
  encode_stamp task uri := (Json.record_put task.members.dropLast _ _ _).symm

/-- The members of a file, as it is written. -/
def SharedFile.members (file : SharedFile) : List (String × Option Json) := [
  ("displayName", file.displayName.map encode),
  ("url", file.url.map encode),
  ("fileSize", file.fileSize.map encode)]

/-- The members of an activity, as it is written. -/
def Activity.members (activity : Activity) : List (String × Option Json) := [
  ("id", activity.id.map encode),
  ("verb", activity.verb.map encode),
  ("displayName", activity.displayName.map encode),
  ("content", activity.content.map encode),
  ("files", Json.unlessEmpty activity.files),
  ("encryptionKeyUrl", activity.encryptionKeyUrl.map encode)]

instance : ShownProtected Activity where
  shows := by
    have written (activity : Activity) : encode activity = Json.record activity.members := rfl
    have distinct (activity : Activity) : (activity.members.map Prod.fst).Nodup := by
      simp [Activity.members]
    have file : (Field.scalar "displayName" SharedFile.displayName fun file text =>
        { file with displayName := some text }).Shows (· = [.member "displayName"]) :=
      Field.shows_scalar "displayName" 0
        (fun file => (rfl : encode file = Json.record file.members))
        (fun _ => by simp) (fun _ => rfl) (fun _ _ => rfl) rfl
    refine List.forall_mem_cons.mpr ⟨?_, List.forall_mem_cons.mpr
      ⟨?_, List.forall_mem_singleton.mpr ?_⟩⟩
    · exact Field.shows_scalar "displayName" 2 written distinct (fun _ => rfl) (fun _ _ => rfl)
        (.head _)
    · exact Field.shows_scalar "content" 3 written distinct (fun _ => rfl) (fun _ _ => rfl)
        (.tail _ (.head _))
    · refine Field.shows_each "files[].displayName"
        (fun activity files => { activity with files }) 4 written distinct (fun _ => rfl)
        (fun _ _ => rfl) file ?_
      rintro item _ rfl
      exact .tail _ (.tail _ (.head _))
  encode_stamp activity uri := (Json.record_put activity.members.dropLast _ _ _).symm

/-- The members of a question, as it is written. -/
def AssistantRequest.members (request : AssistantRequest) : List (String × Option Json) := [
  ("query", request.query.map encode),
  ("locale", request.locale.map encode),
  ("encryptionKeyUrl", request.encryptionKeyUrl.map encode)]

instance : ShownProtected AssistantRequest where
  shows := by
    have written (request : AssistantRequest) : encode request = Json.record request.members := rfl
    have distinct (request : AssistantRequest) : (request.members.map Prod.fst).Nodup := by
      simp [AssistantRequest.members]
    refine List.forall_mem_singleton.mpr ?_
    exact Field.shows_scalar "query" 0 written distinct (fun _ => rfl) (fun _ _ => rfl) (.head _)
  encode_stamp request uri := (Json.record_put request.members.dropLast _ _ _).symm

/-- The members of a message, as it is written. -/
def AssistantMessage.members (message : AssistantMessage) : List (String × Option Json) := [
  ("value", message.value.map encode),
  ("format", message.format.map encode)]

/-- The members of an answer, as it is written. -/
def AssistantResponse.members (response : AssistantResponse) : List (String × Option Json) := [
  ("id", response.id.map encode),
  ("messages", Json.unlessEmpty response.messages),
  ("encryptionKeyUrl", response.encryptionKeyUrl.map encode)]

instance : ShownProtected AssistantResponse where
  shows := by
    have written (response : AssistantResponse) : encode response = Json.record response.members :=
      rfl
    have distinct (response : AssistantResponse) : (response.members.map Prod.fst).Nodup := by
      simp [AssistantResponse.members]
    have message : (Field.scalar "value" AssistantMessage.value fun message text =>
        { message with value := some text }).Shows (· = [.member "value"]) :=
      Field.shows_scalar "value" 0
        (fun message => (rfl : encode message = Json.record message.members))
        (fun _ => by simp) (fun _ => rfl) (fun _ _ => rfl) rfl
    refine List.forall_mem_singleton.mpr ?_
    refine Field.shows_each "messages[].value"
      (fun response messages => { response with messages }) 1 written distinct (fun _ => rfl)
      (fun _ _ => rfl) message ?_
    rintro item _ rfl
    exact .head _
  encode_stamp response uri := (Json.record_put response.members.dropLast _ _ _).symm

instance : (kind : RecordKind) → ShownProtected kind.Record
  | .taskRequest => inferInstanceAs (ShownProtected TaskRequest)
  | .task => inferInstanceAs (ShownProtected Task)
  | .activity => inferInstanceAs (ShownProtected Activity)
  | .assistantRequest => inferInstanceAs (ShownProtected AssistantRequest)
  | .assistantResponse => inferInstanceAs (ShownProtected AssistantResponse)

namespace Layout

/-- Texts for slots that hold one that is not empty. -/
theorem rewords_overwrite {slots : List String} {done : List (Excerpt × String)}
    (full : ∀ item ∈ done, slots[item.1.slotIndex]? ≠ some "") :
    List.Forall₂ Rewords slots (overwrite slots done) := by
  refine List.forall₂_iff_get.mpr ⟨(length_overwrite slots done).symm, ?_⟩
  intro index bound bound' empty
  have held : slots[index]? = some "" := by
    rw [List.getElem?_eq_getElem bound]
    exact congrArg some empty
  have kept : (overwrite slots done)[index]? = some "" := by
    rw [← held]
    apply overwrite_other
    rintro item member rfl
    exact full item member held
  exact Option.some.inj ((List.getElem?_eq_getElem bound').symm.trans kept)

variable [Wire R]

/-- Fields that are apart show only at their own places, whatever is written into the others. -/
theorem reworded_putBackFields {free : List Json.Place → Prop} {fields : List (Field R)}
    (sound : ∀ field ∈ fields, field.Sound) (apart : fields.Pairwise Field.Apart)
    (shows : ∀ field ∈ fields, field.Shows free) {done : List (Excerpt × String)} (start : Nat)
    {record : R}
    (full : ∀ (index : Nat) field, fields[index]? = some field →
      ∀ item ∈ group done (start + index), (field.read record)[item.1.slotIndex]? ≠ some "") :
    Reworded free (encode record) (encode (putBackFields done start fields record)) := by
  induction fields generalizing start record with
  | nil => exact .refl _ _
  | cons field rest ih =>
      obtain ⟨ahead, apart⟩ := List.pairwise_cons.mp apart
      obtain ⟨soundFirst, soundRest⟩ := List.forall_mem_cons.mp sound
      obtain ⟨showsFirst, showsRest⟩ := List.forall_mem_cons.mp shows
      rw [putBackFields_cons soundFirst]
      have first := showsFirst record _ (rewords_overwrite (full 0 field rfl))
      refine first.trans (ih soundRest apart showsRest (start + 1) ?_)
      intro index other there item member
      rw [(ahead other (List.mem_of_getElem? there)).read_write record _ (length_overwrite _ _)]
      apply full (index + 1) other there item
      rw [← Nat.add_assoc, Nat.add_right_comm]
      exact member

/-- Texts that are put back for excerpts of a record show where its layout names them. -/
theorem Separate.reworded_putBack {layout : Layout R} (separate : layout.Separate)
    (shows : ∀ field ∈ layout.fields, field.Shows layout.Names) {record : R}
    {done : List (Excerpt × String)} (taken : ∀ item ∈ done, item.1 ∈ layout.takeOut record) :
    Reworded layout.Names (encode record) (encode (layout.putBack record done)) := by
  refine reworded_putBackFields separate.sound separate.apart shows 0 ?_
  intro index field there item member empty
  obtain ⟨member, same⟩ := List.mem_filter.mp member
  have same : item.1.fieldIndex = 0 + index := of_decide_eq_true same
  rw [Nat.zero_add] at same
  obtain ⟨-, held, full⟩ := ((lists_takeOut layout record).mem item.1).mp (taken item member)
  rw [slot?, same, there, Option.bind_some, empty] at held
  exact full (Option.some.inj held).symm

/-- Whatever becomes of the excerpts, applying a layout shows where it names them. -/
theorem Separate.apply_reworded {layout : Layout R} (separate : layout.Separate)
    (shows : ∀ field ∈ layout.fields, field.Shows layout.Names) (transform : Transform)
    (direction : Direction) (key : KeyHandle) (record : R) :
    (layout.apply transform direction key record).Gives fun ended =>
      Reworded layout.Names (encode record) (encode ended.2) := by
  refine (Routine.gives_true _).bind fun outcomes _ => ?_
  apply separate.reworded_putBack shows
  intro item member
  obtain ⟨index, there, -⟩ := mem_succeeded_zip.mp member
  exact List.mem_of_getElem? there

end Layout

end FieldCrypt
