import FieldCrypt.Record.Layout

/-!
# Tasks

A task as it is sent in and as it is kept. Title and notes are encrypted.
-/

namespace FieldCrypt

/-- A task as it is sent in. -/
structure TaskRequest where
  title : Option String := none
  notes : Option String := none
  dueDate : Option String := none
  status : Option String := none
  encryptionKeyUrl : Option KeyUri := none
  deriving DecidableEq, Repr, Inhabited

instance : Wire TaskRequest where
  encode task := .record [
    ("title", task.title.map encode),
    ("notes", task.notes.map encode),
    ("dueDate", task.dueDate.map encode),
    ("status", task.status.map encode),
    ("encryptionKeyUrl", task.encryptionKeyUrl.map encode)]
  decode? json := do
    let fields ← json.fields? ["title", "notes", "dueDate", "status", "encryptionKeyUrl"]
    return {
      title := ← Json.optional fields "title"
      notes := ← Json.optional fields "notes"
      dueDate := ← Json.optional fields "dueDate"
      status := ← Json.optional fields "status"
      encryptionKeyUrl := ← Json.optional fields "encryptionKeyUrl" }

instance : Protected TaskRequest where
  layout := ⟨[
    .scalar "title" TaskRequest.title fun task text => { task with title := some text },
    .scalar "notes" TaskRequest.notes fun task text => { task with notes := some text }]⟩
  keyUrl := TaskRequest.encryptionKeyUrl
  stamp task uri := { task with encryptionKeyUrl := some uri }

/-- A task as it is kept. -/
structure Task where
  id : String
  title : Option String := none
  notes : Option String := none
  dueDate : Option String := none
  status : Option String := none
  encryptionKeyUrl : Option KeyUri := none
  deriving DecidableEq, Repr, Inhabited

instance : Wire Task where
  encode task := .record [
    ("id", some (encode task.id)),
    ("title", task.title.map encode),
    ("notes", task.notes.map encode),
    ("dueDate", task.dueDate.map encode),
    ("status", task.status.map encode),
    ("encryptionKeyUrl", task.encryptionKeyUrl.map encode)]
  decode? json := do
    let fields ← json.fields? ["id", "title", "notes", "dueDate", "status", "encryptionKeyUrl"]
    return {
      id := ← Json.required fields "id"
      title := ← Json.optional fields "title"
      notes := ← Json.optional fields "notes"
      dueDate := ← Json.optional fields "dueDate"
      status := ← Json.optional fields "status"
      encryptionKeyUrl := ← Json.optional fields "encryptionKeyUrl" }

instance : Protected Task where
  layout := ⟨[
    .scalar "title" Task.title fun task text => { task with title := some text },
    .scalar "notes" Task.notes fun task text => { task with notes := some text }]⟩
  keyUrl := Task.encryptionKeyUrl
  stamp task uri := { task with encryptionKeyUrl := some uri }

/-- The task that is kept for one that was sent in. -/
def Task.ofRequest (id : String) (request : TaskRequest) : Task where
  id := id
  title := request.title
  notes := request.notes
  dueDate := request.dueDate
  status := request.status
  encryptionKeyUrl := request.encryptionKeyUrl

end FieldCrypt
