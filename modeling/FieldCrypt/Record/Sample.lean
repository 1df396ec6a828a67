import FieldCrypt.Record.Activity
import FieldCrypt.Record.Assistant
import FieldCrypt.Record.Task

/-!
# Sample records

One plain record of each kind, and the host that keys of samples are kept on.
-/

namespace FieldCrypt.Sample

/-- The host of sample keys. -/
def host : String := "test-kms.com"

/-- The URI of a key on a host. -/
def keyUri (host id : String) : String := "kms://" ++ host ++ "/keys/" ++ id

def taskRequest : TaskRequest where
  title := some "plain text title"
  notes := some "plain text note"
  dueDate := some "2024-03-01T09:00:00Z"
  status := some "open"

def activity : Activity where
  id := some "activity-1"
  verb := some "post"
  displayName := some "Launch notes"
  content := some "Ship it on Friday"
  files := [
    { displayName := some "plan.docx", url := some "https://files.example.com/plan"
      fileSize := some 2048 },
    { displayName := some "budget.xlsx", url := some "https://files.example.com/budget"
      fileSize := some 4096 }]

def assistantRequest : AssistantRequest where
  query := some "what did I miss yesterday?"
  locale := some "en-US"

def assistantResponse : AssistantResponse where
  id := some "answer-1"
  messages := [
    { value := some "Two new messages in #design", format := some "markdown" },
    { value := some "One meeting was moved", format := some "markdown" }]

end FieldCrypt.Sample
