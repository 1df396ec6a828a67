import FieldCrypt.Record.Layout

/-!
# Exchanges with an assistant

A question and its answer. The question itself and the values of the answer's messages are
encrypted.
-/

namespace FieldCrypt

/-- A question to the assistant. -/
structure AssistantRequest where
  query : Option String := none
  locale : Option String := none
  encryptionKeyUrl : Option KeyUri := none
  deriving DecidableEq, Repr, Inhabited

instance : Wire AssistantRequest where
  encode request := .record [
    ("query", request.query.map encode),
    ("locale", request.locale.map encode),
    ("encryptionKeyUrl", request.encryptionKeyUrl.map encode)]
  decode? json := do
    let fields ← json.fields? ["query", "locale", "encryptionKeyUrl"]
    return {
      query := ← Json.optional fields "query"
      locale := ← Json.optional fields "locale"
      encryptionKeyUrl := ← Json.optional fields "encryptionKeyUrl" }

instance : Protected AssistantRequest where
  layout := ⟨[
    .scalar "query" AssistantRequest.query fun request text => { request with query := some text }]⟩
  keyUrl := AssistantRequest.encryptionKeyUrl
  stamp request uri := { request with encryptionKeyUrl := some uri }

/-- A message of an answer. -/
structure AssistantMessage where
  value : Option String := none
  format : Option String := none
  deriving DecidableEq, Repr, Inhabited

instance : Wire AssistantMessage where
  encode message := .record [
    ("value", message.value.map encode),
    ("format", message.format.map encode)]
  decode? json := do
    let fields ← json.fields? ["value", "format"]
    return {
      value := ← Json.optional fields "value"
      format := ← Json.optional fields "format" }

/-- The answer of the assistant. -/
structure AssistantResponse where
  id : Option String := none
  messages : List AssistantMessage := []
  encryptionKeyUrl : Option KeyUri := none
  deriving DecidableEq, Repr, Inhabited

instance : Wire AssistantResponse where
  encode response := .record [
    ("id", response.id.map encode),
    ("messages", Json.unlessEmpty response.messages),
    ("encryptionKeyUrl", response.encryptionKeyUrl.map encode)]
  decode? json := do
    let fields ← json.fields? ["id", "messages", "encryptionKeyUrl"]
    return {
      id := ← Json.optional fields "id"
      messages := ← Json.defaulted fields "messages" []
      encryptionKeyUrl := ← Json.optional fields "encryptionKeyUrl" }

instance : Protected AssistantResponse where
  layout := ⟨[
    .each "messages[].value" (fun response => response.messages.filterMap AssistantMessage.value)
      fun response texts =>
        { response with
          messages := refill AssistantMessage.value
            (fun message text => { message with value := some text }) response.messages texts }]⟩
  keyUrl := AssistantResponse.encryptionKeyUrl
  stamp response uri := { response with encryptionKeyUrl := some uri }

end FieldCrypt
