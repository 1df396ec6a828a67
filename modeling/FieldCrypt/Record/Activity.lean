import FieldCrypt.Record.Layout

/-!
# Activities

A message or share in a conversation. Its display name and content and the display names of its
files are encrypted.
-/

namespace FieldCrypt

/-- A file in an activity. -/
structure SharedFile where
  displayName : Option String := none
  url : Option String := none
  fileSize : Option UInt64 := none
  deriving DecidableEq, Repr, Inhabited

instance : Wire SharedFile where
  encode file := .record [
    ("displayName", file.displayName.map encode),
    ("url", file.url.map encode),
    ("fileSize", file.fileSize.map encode)]
  decode? json := do
    let fields ← json.fields? ["displayName", "url", "fileSize"]
    return {
      displayName := ← Json.optional fields "displayName"
      url := ← Json.optional fields "url"
      fileSize := ← Json.optional fields "fileSize" }

/-- A message or share in a conversation. -/
structure Activity where
  id : Option String := none
  verb : Option String := none
  displayName : Option String := none
  content : Option String := none
  files : List SharedFile := []
  encryptionKeyUrl : Option KeyUri := none
  deriving DecidableEq, Repr, Inhabited

namespace Activity

def memberNames : List String :=
  ["id", "verb", "displayName", "content", "files", "encryptionKeyUrl"]

instance : Wire Activity where
  encode activity := .record [
    ("id", activity.id.map encode),
    ("verb", activity.verb.map encode),
    ("displayName", activity.displayName.map encode),
    ("content", activity.content.map encode),
    ("files", Json.unlessEmpty activity.files),
    ("encryptionKeyUrl", activity.encryptionKeyUrl.map encode)]
  decode? json := do
    let fields ← json.fields? memberNames
    return {
      id := ← Json.optional fields "id"
      verb := ← Json.optional fields "verb"
      displayName := ← Json.optional fields "displayName"
      content := ← Json.optional fields "content"
      files := ← Json.defaulted fields "files" []
      encryptionKeyUrl := ← Json.optional fields "encryptionKeyUrl" }

instance : Protected Activity where
  layout := ⟨[
    .scalar "displayName" Activity.displayName fun activity text =>
      { activity with displayName := some text },
    .scalar "content" Activity.content fun activity text => { activity with content := some text },
    .each "files[].displayName" (fun activity => activity.files.filterMap SharedFile.displayName)
      fun activity texts =>
        { activity with
          files := refill SharedFile.displayName
            (fun file text => { file with displayName := some text }) activity.files texts }]⟩
  keyUrl := Activity.encryptionKeyUrl
  stamp activity uri := { activity with encryptionKeyUrl := some uri }

end Activity

end FieldCrypt
