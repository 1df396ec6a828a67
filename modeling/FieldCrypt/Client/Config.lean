import FieldCrypt.Broker.Request

/-!
# Arguments of the client

The settings of a client, and whose master keys a request is about.
-/

namespace FieldCrypt

/-- Settings of a client. -/
structure ClientConfig where
  /-- Keep resolved keys in a cache. -/
  cacheResolvedKeys : Bool := true
  /-- How many keys the cache holds. -/
  keyCacheCapacity : UInt64 := 256
  deriving DecidableEq, Repr, Inhabited

instance : Wire ClientConfig where
  encode config := .record [
    ("cache_resolved_keys", some (encode config.cacheResolvedKeys)),
    ("key_cache_capacity", some (encode config.keyCacheCapacity))]
  decode? json := do
    let fields ← json.fields? ["cache_resolved_keys", "key_cache_capacity"]
    return {
      cacheResolvedKeys := ← Json.defaulted fields "cache_resolved_keys" true
      keyCacheCapacity := ← Json.defaulted fields "key_cache_capacity" 256 }

/-- The master keys of an organization, held by the broker or in AWS KMS. -/
structure MasterKeyScope where
  assignedOrgId : String
  awsKms : Bool := false
  deriving DecidableEq, Repr, Inhabited

namespace MasterKeyScope

instance : Wire MasterKeyScope where
  encode scope := .record [
    ("assignedOrgId", some (encode scope.assignedOrgId)),
    ("awsKms", some (encode scope.awsKms))]
  decode? json := do
    let fields ← json.fields? ["assignedOrgId", "awsKms"]
    return {
      assignedOrgId := ← Json.required fields "assignedOrgId"
      awsKms := ← Json.defaulted fields "awsKms" false }

/-- A request about these master keys. -/
def request (scope : MasterKeyScope) (method : Broker.Method) : Broker.Request :=
  { method, uri := Broker.Endpoint.masterKeys scope.awsKms
    assignedOrgId := some scope.assignedOrgId }

end MasterKeyScope

/-- A master key to register. -/
structure MasterKeyUpload where
  assignedOrgId : String
  awsKms : Bool := false
  customerMasterKey : Option String := none
  customerMasterKeyRole : Option String := none
  customerMasterKeyBackup : Option String := none
  deriving DecidableEq, Repr, Inhabited

namespace MasterKeyUpload

def memberNames : List String :=
  ["assignedOrgId", "awsKms", "customerMasterKey", "customerMasterKeyRole",
    "customerMasterKeyBackup"]

instance : Wire MasterKeyUpload where
  encode upload := .record [
    ("assignedOrgId", some (encode upload.assignedOrgId)),
    ("awsKms", some (encode upload.awsKms)),
    ("customerMasterKey", some (Json.orNull (upload.customerMasterKey.map encode))),
    ("customerMasterKeyRole", some (Json.orNull (upload.customerMasterKeyRole.map encode))),
    ("customerMasterKeyBackup", some (Json.orNull (upload.customerMasterKeyBackup.map encode)))]
  decode? json := do
    let fields ← json.fields? memberNames
    return {
      assignedOrgId := ← Json.required fields "assignedOrgId"
      awsKms := ← Json.defaulted fields "awsKms" false
      customerMasterKey := ← Json.optional fields "customerMasterKey"
      customerMasterKeyRole := ← Json.optional fields "customerMasterKeyRole"
      customerMasterKeyBackup := ← Json.optional fields "customerMasterKeyBackup" }

/-- Role and backup are sent for keys in AWS KMS only. -/
def request (upload : MasterKeyUpload) : Broker.Request :=
  let scope : MasterKeyScope := { assignedOrgId := upload.assignedOrgId, awsKms := upload.awsKms }
  { scope.request .create with
    customerMasterKey := upload.customerMasterKey
    customerMasterKeyRole := if upload.awsKms then upload.customerMasterKeyRole else none
    customerMasterKeyBackup := if upload.awsKms then upload.customerMasterKeyBackup else none }

end MasterKeyUpload

end FieldCrypt
