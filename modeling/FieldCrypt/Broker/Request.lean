import FieldCrypt.Json.Wire

/-!
# Requests to the key broker

A request names a method and a URI, either a key or one of the fixed endpoints; all other members
are there for some requests only and are left out of the wire form otherwise.
-/

namespace FieldCrypt.Broker

/-- What a request asks for. -/
inductive Method where
  | create | retrieve | update | delete
  deriving DecidableEq, Repr, Inhabited

namespace Method

def name : Method → String
  | create => "create"
  | retrieve => "retrieve"
  | update => "update"
  | delete => "delete"

def ofName? (name : String) : Option Method :=
  [create, retrieve, update, delete].find? fun method => method.name = name

instance : Wire Method where
  encode method := .str method.name
  decode? json := json.choice?.bind ofName?

end Method

namespace Endpoint

def keys : String := "/keys"
def resources : String := "/resources"
def authorizations : String := "/authorizations"
def ping : String := "/ping"

/-- Master keys, held by the broker itself or in AWS KMS. -/
def masterKeys (awsKms : Bool) : String := if awsKms then "/awsKmsCmk" else "/cmk"

end Endpoint

/-- A request body. -/
structure Request where
  method : Method
  uri : String
  count : Option UInt32 := none
  assignedOrgId : Option String := none
  customerMasterKey : Option String := none
  customerMasterKeyRole : Option String := none
  customerMasterKeyBackup : Option String := none
  keyId : Option String := none
  resourceUri : Option String := none
  keyUris : List String := []
  userIds : List String := []
  authId : Option String := none
  deriving DecidableEq, Repr, Inhabited

namespace Request

/-- Ask for the key of that URI. -/
def retrieve (uri : String) : Request := { method := .retrieve, uri }

/-- Ask for new keys that belong to no resource yet. -/
def createKeys (count : UInt32) : Request :=
  { method := .create, uri := Endpoint.keys, count := some count }

def memberNames : List String :=
  ["method", "uri", "count", "assignedOrgId", "customerMasterKey", "customerMasterKeyRole",
    "customerMasterKeyBackup", "keyId", "resourceUri", "keyUris", "userIds", "authId"]

instance : Wire Request where
  encode request := .record [
    ("method", some (encode request.method)),
    ("uri", some (encode request.uri)),
    ("count", request.count.map encode),
    ("assignedOrgId", request.assignedOrgId.map encode),
    ("customerMasterKey", request.customerMasterKey.map encode),
    ("customerMasterKeyRole", request.customerMasterKeyRole.map encode),
    ("customerMasterKeyBackup", request.customerMasterKeyBackup.map encode),
    ("keyId", request.keyId.map encode),
    ("resourceUri", request.resourceUri.map encode),
    ("keyUris", Json.unlessEmpty request.keyUris),
    ("userIds", Json.unlessEmpty request.userIds),
    ("authId", request.authId.map encode)]
  decode? json := do
    let fields ← json.fields? memberNames
    return {
      method := ← Json.required fields "method"
      uri := ← Json.required fields "uri"
      count := ← Json.optional fields "count"
      assignedOrgId := ← Json.optional fields "assignedOrgId"
      customerMasterKey := ← Json.optional fields "customerMasterKey"
      customerMasterKeyRole := ← Json.optional fields "customerMasterKeyRole"
      customerMasterKeyBackup := ← Json.optional fields "customerMasterKeyBackup"
      keyId := ← Json.optional fields "keyId"
      resourceUri := ← Json.optional fields "resourceUri"
      keyUris := ← Json.defaulted fields "keyUris" []
      userIds := ← Json.defaulted fields "userIds" []
      authId := ← Json.optional fields "authId" }

end Request

/-- What a caller may ask for besides the body of a request. -/
structure Options where
  /-- Act for another user. -/
  onBehalfOf : Option String := none
  deriving DecidableEq, Repr, Inhabited

namespace Options

/-- The options as they are sent: none at all when none is set. -/
def sent? (options : Options) : Option Options :=
  if options.onBehalfOf.isSome then some options else none

instance : Wire Options where
  encode options := .record [("onBehalfOf", options.onBehalfOf.map encode)]
  decode? json := do
    let fields ← json.fields? ["onBehalfOf"]
    return { onBehalfOf := ← Json.optional fields "onBehalfOf" }

end Options

/-- A request with its options, as the broker gets it. -/
structure Call where
  request : Request
  options : Option Options
  deriving DecidableEq, Repr

end FieldCrypt.Broker
