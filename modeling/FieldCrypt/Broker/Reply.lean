import FieldCrypt.Key.Material

/-!
# Replies of the key broker

A reply has a status and whatever the request asked for: keys, a resource, authorizations or master
keys. Of a reply that reports a failure, `Failure.ofReply` keeps what a caller is told.
-/

namespace FieldCrypt.Broker

/-- A key in a reply. -/
structure KeyEntry where
  uri : Option String := none
  jwk : Json := .null
  resourceUri : Option String := none
  deriving Inhabited

namespace KeyEntry

instance : Wire KeyEntry where
  encode key := .record [
    ("uri", key.uri.map encode),
    ("jwk", some key.jwk),
    ("resourceUri", key.resourceUri.map encode)]
  decode? json := do
    let fields ← json.fields? ["uri", "jwk", "resourceUri"]
    return {
      uri := ← Json.optional fields "uri"
      jwk := ← Json.defaulted fields "jwk" .null
      resourceUri := ← Json.optional fields "resourceUri" }

/-- The first of two texts that is there and not empty. -/
def firstNonempty (first second : Option String) : Option String :=
  (first.filter fun text => !text.isEmpty).or (second.filter fun text => !text.isEmpty)

/-- The material of a key, under its own URI or, where it has none, under the other one given. -/
def material? (key : KeyEntry) (otherwise : Option String) : Option KeyMaterial :=
  (firstNonempty key.uri otherwise).map fun uri => ⟨⟨uri⟩, key.jwk⟩

end KeyEntry

/-- A resource that keys and authorizations belong to. -/
structure Resource where
  uri : String
  keyUris : List String := []
  authorizationUris : List String := []
  deriving DecidableEq, Repr, Inhabited

instance : Wire Resource where
  encode resource := .record [
    ("uri", some (encode resource.uri)),
    ("keyUris", some (encode resource.keyUris)),
    ("authorizationUris", some (encode resource.authorizationUris))]
  decode? json := do
    let fields ← json.fields? ["uri", "keyUris", "authorizationUris"]
    return {
      uri := ← Json.required fields "uri"
      keyUris := ← Json.defaulted fields "keyUris" []
      authorizationUris := ← Json.defaulted fields "authorizationUris" [] }

/-- The right of a user on a resource. -/
structure Authorization where
  uri : String
  authId : String
  resourceUri : Option String := none
  deriving DecidableEq, Repr, Inhabited

instance : Wire Authorization where
  encode authorization := .record [
    ("uri", some (encode authorization.uri)),
    ("authId", some (encode authorization.authId)),
    ("resourceUri", authorization.resourceUri.map encode)]
  decode? json := do
    let fields ← json.fields? ["uri", "authId", "resourceUri"]
    return {
      uri := ← Json.required fields "uri"
      authId := ← Json.required fields "authId"
      resourceUri := ← Json.optional fields "resourceUri" }

/-- A master key that an organization has registered. -/
structure MasterKey where
  uri : String
  status : String := ""
  assignedOrgId : Option String := none
  backup : Option String := none
  deriving DecidableEq, Repr, Inhabited

instance : Wire MasterKey where
  encode key := .record [
    ("uri", some (encode key.uri)),
    ("status", some (encode key.status)),
    ("assignedOrgId", key.assignedOrgId.map encode),
    ("backup", key.backup.map encode)]
  decode? json := do
    let fields ← json.fields? ["uri", "status", "assignedOrgId", "backup"]
    return {
      uri := ← Json.required fields "uri"
      status := ← Json.defaulted fields "status" ""
      assignedOrgId := ← Json.optional fields "assignedOrgId"
      backup := ← Json.optional fields "backup" }

/-- A reply. A status of zero means that none was given. -/
structure Reply where
  status : UInt16 := 0
  errorCode : Option UInt32 := none
  reason : Option String := none
  requestId : Option String := none
  redirectUri : Option String := none
  uri : Option String := none
  key : Option KeyEntry := none
  keys : List KeyEntry := []
  resource : Option Resource := none
  authorizations : List Authorization := []
  customerMasterKeys : List MasterKey := []
  deriving Inhabited

namespace Reply

/-- A reply that carries one key and repeats the URI of it. -/
def ofKey (key : KeyEntry) : Reply := { status := 200, uri := key.uri, key := some key }

/-- A reply that reports a failure. -/
def failure (status : UInt16) (errorCode : UInt32) (reason : String) : Reply :=
  { status, errorCode := some errorCode, reason := some reason }

/-- Statuses from 200 to 299. -/
def isSuccess (reply : Reply) : Bool := 200 ≤ reply.status && reply.status < 300

/-- Statuses from 400 on. -/
def isFailure (reply : Reply) : Bool := 400 ≤ reply.status

def memberNames : List String :=
  ["status", "errorCode", "reason", "requestId", "redirectUri", "uri", "key", "keys", "resource",
    "authorizations", "customerMasterKeys"]

instance : Wire Reply where
  encode reply := .record [
    ("status", some (encode reply.status)),
    ("errorCode", reply.errorCode.map encode),
    ("reason", reply.reason.map encode),
    ("requestId", reply.requestId.map encode),
    ("redirectUri", reply.redirectUri.map encode),
    ("uri", reply.uri.map encode),
    ("key", reply.key.map encode),
    ("keys", Json.unlessEmpty reply.keys),
    ("resource", reply.resource.map encode),
    ("authorizations", Json.unlessEmpty reply.authorizations),
    ("customerMasterKeys", Json.unlessEmpty reply.customerMasterKeys)]
  decode? json := do
    let fields ← json.fields? memberNames
    return {
      status := ← Json.defaulted fields "status" 0
      errorCode := ← Json.optional fields "errorCode"
      reason := ← Json.optional fields "reason"
      requestId := ← Json.optional fields "requestId"
      redirectUri := ← Json.optional fields "redirectUri"
      uri := ← Json.optional fields "uri"
      key := ← Json.optional fields "key"
      keys := ← Json.defaulted fields "keys" []
      resource := ← Json.optional fields "resource"
      authorizations := ← Json.defaulted fields "authorizations" []
      customerMasterKeys := ← Json.defaulted fields "customerMasterKeys" [] }

end Reply

/-- A failure that the broker reported, with nothing missing any more. -/
structure Failure where
  status : UInt16
  errorCode : UInt32
  reason : String
  requestId : String
  redirectUri : Option KeyUri
  deriving DecidableEq, Repr

namespace Failure

/-- The error code of a key that has moved. -/
def keyMigrated : UInt32 := 301002

/-- What a reply says about a failure. Missing numbers become zero and missing texts empty, and an
empty redirect is none. -/
def ofReply (reply : Reply) : Failure where
  status := reply.status
  errorCode := reply.errorCode.getD 0
  reason := reply.reason.getD ""
  requestId := reply.requestId.getD ""
  redirectUri := (reply.redirectUri.filter fun uri => !uri.isEmpty).map KeyUri.mk

/-- Whether the key has moved. -/
def isKeyMigrated (failure : Failure) : Bool := failure.errorCode = keyMigrated

/-- The text of a failure: its reason, status, request id and error code, each behind its label. -/
def message (failure : Failure) : String :=
  "KmsError: " ++ failure.reason ++
    "\nKMS_RESPONSE_STATUS: " ++ toString failure.status.toNat ++
    "\nKMS_REQUEST_ID: " ++ failure.requestId ++
    "\nKMS_ErrorCode: " ++ toString failure.errorCode.toNat

end Failure

end FieldCrypt.Broker
