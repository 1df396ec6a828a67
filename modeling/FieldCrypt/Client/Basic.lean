import FieldCrypt.Client.Config
import FieldCrypt.Shared

/-!
# The client of the broker

Each operation builds a request, sends it and reads the reply. A key that has moved is asked for
once more under its new URI and no further. Arguments that a request cannot do without are looked at
before anything is sent.
-/

namespace FieldCrypt

open Broker

/-- A client: its settings, and its cache if the settings ask for one. -/
structure Client where
  config : ClientConfig := {}
  cache : Option CacheId := none
  deriving DecidableEq, Repr, Inhabited

namespace Client

/-- A client with these settings and an empty cache of its own. -/
def create {σ : Type} (config : ClientConfig) (shared : Shared σ) : Client × Shared σ :=
  if config.cacheResolvedKeys then
    let (id, shared) := shared.addCache (.ofCapacity config.keyCacheCapacity.toNat)
    ({ config, cache := some id }, shared)
  else ({ config }, shared)

/-- Send a request. The sender gives up its turn before the broker sees it. -/
def send (request : Request) (options : Option Options) :
    Routine Effect (Except ClientError Reply) :=
  .pause (.ask (.send { request, options }))

/-- A reply unless it reports a failure. -/
def checked (outcome : Except ClientError Reply) : Except ClientError Reply :=
  match outcome with
  | .ok reply => if reply.isFailure then .error (.broker (.ofReply reply)) else .ok reply
  | .error error => .error error

/-- Send a request without options, and take a reply that reports a failure for an error. -/
def exchange (request : Request) : Routine Effect (Except ClientError Reply) := do
  return checked (← send request none)

/-- Where a key has moved to, if that is what the outcome says: in a reply or as an error. -/
def redirect? (outcome : Except ClientError Reply) : Option String :=
  let target (code : UInt32) (uri : Option String) : Option String :=
    if code = Failure.keyMigrated then uri.filter fun uri => !uri.isEmpty else none
  match outcome with
  | .ok reply => target (reply.errorCode.getD 0) reply.redirectUri
  | .error (.broker failure) => target failure.errorCode (failure.redirectUri.map KeyUri.text)
  | .error _ => none

/-- The key in a reply, under its own URI, else the reply's, else the one that was asked for. A
reply without a key reports a failure. -/
def keyOf (asked : KeyUri) (reply : Reply) : Except ClientError KeyMaterial :=
  match reply.key with
  | none => .error (.broker (.ofReply reply))
  | some key =>
    let otherwise := KeyEntry.firstNonempty reply.uri (some asked.text)
    match key.material? otherwise with
    | some material => .ok material
    | none => .error (.key .missingUri)

/-- The key in an outcome. -/
def keyOfOutcome (asked : KeyUri) (outcome : Except ClientError Reply) :
    Except ClientError KeyMaterial :=
  match outcome with
  | .ok reply => keyOf asked reply
  | .error error => .error error

/-- Ask for a key, and once more if it has moved. -/
def fetch (uri : KeyUri) (options : Option Options) :
    Routine Effect (Except ClientError KeyMaterial) := do
  let first ← send (.retrieve uri.text) options
  match redirect? first with
  | none => return keyOfOutcome uri first
  | some target =>
    let second ← send (.retrieve target) options
    return keyOfOutcome ⟨target⟩ second

/-- Ask for a key, and hold the answer in a cache. -/
def fetchInto (cache : CacheId) (uri : KeyUri) :
    Routine Effect (Except ClientError KeyMaterial) := do
  match ← fetch uri none with
  | .ok key =>
    let _ ← Routine.ask (.remember cache uri key)
    return .ok key
  | .error error => return .error error

/-- The key of a URI. The cache serves and learns only from requests without options. -/
def resolveKey (client : Client) (uri : KeyUri) (options : Options) :
    Routine Effect (Except ClientError KeyMaterial) :=
  if uri.isEmpty then return .error (.missing .uri)
  else
    match options.sent?, client.cache with
    | none, some cache => do
      match ← Routine.ask (.lookup cache uri) with
      | some key => return .ok key
      | none => fetchInto cache uri
    | sent, _ => fetch uri sent

/-- The material of every key in a list. -/
def materials (keys : List KeyEntry) : Except ClientError (List KeyMaterial) :=
  keys.mapM fun key =>
    match key.material? none with
    | some material => .ok material
    | none => .error (.key .missingUri)

/-- Make keys that belong to no resource yet. -/
def createKeys (count : UInt32) : Routine Effect (Except ClientError (List KeyMaterial)) := do
  match ← exchange (.createKeys count) with
  | .ok reply => return materials reply.keys
  | .error error => return .error error

/-- Bind a key to a resource. -/
def bindKey (resourceUri : String) (uri : KeyUri) :
    Routine Effect (Except ClientError KeyMaterial) :=
  if resourceUri.isEmpty then return .error (.missing .resourceUri)
  else if uri.isEmpty then return .error (.missing .keyUri)
  else do
    let outcome ← exchange
      { method := .update, uri := uri.text, resourceUri := some resourceUri }
    return keyOfOutcome uri outcome

/-- Create a resource for some keys, and authorize users on it. -/
def createResource (keyUris : List KeyUri) (userIds : List String) :
    Routine Effect (Except ClientError Resource) := do
  let outcome ← exchange
    { method := .create, uri := Endpoint.resources, keyUris := keyUris.map KeyUri.text, userIds }
  match outcome with
  | .ok reply =>
    match reply.resource with
    | some resource => return .ok resource
    | none => return .error (.unusable "response carries no resource")
  | .error error => return .error error

/-- Send a request about the authorizations on a resource. -/
def aboutAuthorizations (resourceUri : String) (request : Request) :
    Routine Effect (Except ClientError (List Authorization)) :=
  if resourceUri.isEmpty then return .error (.missing .resourceUri)
  else do
    let outcome ← exchange
      { request with uri := Endpoint.authorizations, resourceUri := some resourceUri }
    return outcome.map Reply.authorizations

/-- Authorize users on a resource. -/
def authorize (resourceUri : String) (userIds : List String) :
    Routine Effect (Except ClientError (List Authorization)) :=
  aboutAuthorizations resourceUri { method := .create, uri := "", userIds }

/-- The authorizations on a resource. -/
def authorizations (resourceUri : String) :
    Routine Effect (Except ClientError (List Authorization)) :=
  aboutAuthorizations resourceUri { method := .retrieve, uri := "" }

/-- Take a user's authorization on a resource back. -/
def revoke (resourceUri userId : String) : Routine Effect (Except ClientError Unit) :=
  if userId.isEmpty then return .error (.missing .authId)
  else do
    let outcome ← aboutAuthorizations resourceUri
      { method := .delete, uri := "", authId := some userId }
    return outcome.map fun _ => ()

/-- Send a request about master keys. -/
def aboutMasterKeys (request : Request) : Routine Effect (Except ClientError (List MasterKey)) := do
  return (← exchange request).map Reply.customerMasterKeys

/-- The master keys of an organization. -/
def masterKeys (scope : MasterKeyScope) : Routine Effect (Except ClientError (List MasterKey)) :=
  aboutMasterKeys (scope.request .retrieve)

/-- Register a master key. -/
def registerMasterKey (upload : MasterKeyUpload) :
    Routine Effect (Except ClientError (List MasterKey)) :=
  aboutMasterKeys upload.request

/-- Make one master key of an organization the active one. -/
def activateMasterKey (scope : MasterKeyScope) (keyId : String) :
    Routine Effect (Except ClientError (List MasterKey)) :=
  if keyId.isEmpty then return .error (.missing .keyId)
  else aboutMasterKeys { scope.request .update with keyId := some keyId }

/-- Delete the master keys of an organization. -/
def deleteMasterKeys (scope : MasterKeyScope) :
    Routine Effect (Except ClientError (List MasterKey)) :=
  aboutMasterKeys (scope.request .delete)

/-- Ask whether the broker is there. -/
def ping : Routine Effect (Except ClientError Unit) := do
  return (← exchange { method := .update, uri := Endpoint.ping }).map fun _ => ()

end Client

end FieldCrypt
