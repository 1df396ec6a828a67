import FieldCrypt.Broker.Request
import FieldCrypt.Error
import FieldCrypt.Store.Table
import FieldCrypt.Draws
import FieldCrypt.Text.Hex

/-!
# A broker in memory

The broker keeps keys, moved keys, resources with their authorizations, and the master keys of
organizations. It logs every request, and it can be given a script of outcomes that it serves, in
order, instead of answering. A request that is refused changes nothing but the log and the count of
requests.
-/

namespace FieldCrypt.Broker

/-- An outcome prepared for some request to come. -/
inductive Scripted where
  | reply (reply : Reply)
  | failure (reply : Reply)
  | unreachable (detail : String)

/-- What a request that found its outcome in the script comes to. -/
def Scripted.outcome : Scripted → Except ClientError Reply
  | .reply served => .ok served
  | .failure served => .error (.broker (.ofReply served))
  | .unreachable detail => .error (.transport detail)

/-- Why the broker refuses a request. -/
inductive Refusal where
  | keyNotFound | resourceNotFound | authorizationNotFound | masterKeyNotFound
  | unsupportedMethod | unsupportedRequest | resourceUriRequired
  deriving DecidableEq, Repr

namespace Refusal

def reason : Refusal → String
  | keyNotFound => "key not found"
  | resourceNotFound => "resource not found"
  | authorizationNotFound => "authorization not found"
  | masterKeyNotFound => "master key not found"
  | unsupportedMethod => "unsupported method"
  | unsupportedRequest => "unsupported request"
  | resourceUriRequired => "resourceUri is required"

/-- The reply that reports the refusal: what was not found is 404, what makes no sense 400. -/
def reply (refusal : Refusal) (requestId : String) : Reply :=
  let (status, code) : UInt16 × UInt32 := match refusal with
    | keyNotFound | resourceNotFound | authorizationNotFound | masterKeyNotFound => (404, 404001)
    | unsupportedMethod | unsupportedRequest | resourceUriRequired => (400, 400001)
  { Reply.failure status code refusal.reason with requestId := some requestId }

end Refusal

namespace MasterKey.Status

def active : String := "ACTIVE"
def pending : String := "PENDING"
def inactive : String := "INACTIVE"

end MasterKey.Status

/-- What the broker keeps. -/
structure State where
  host : String
  keys : Table String KeyEntry := {}
  /-- The new URI of each URI that a key was moved away from. -/
  migrations : Table String String := {}
  resources : Table String Resource := {}
  /-- The authorizations on each resource. -/
  authorizations : Table String (List Authorization) := {}
  /-- The master keys of an organization, those in AWS KMS apart from the others. -/
  masterKeys : Table (String × Bool) (List MasterKey) := {}
  script : List Scripted := []
  calls : List Call := []
  /-- How many requests were answered without the script. -/
  answered : Nat := 0
  deriving Inhabited

namespace State

/-- Keep a key under a URI. -/
def addKey (state : State) (uri : String) (jwk : Json) : State :=
  { state with keys := state.keys.insert uri { uri := some uri, jwk } }

/-- Move a key to another URI, and from then on answer requests for the old one with the new. The
move is recorded even when there is no such key. -/
def moveKey (state : State) (source target : String) : State :=
  let keys := match state.keys.find? source with
    | some key => (state.keys.erase source).insert target { key with uri := some target }
    | none => state.keys
  { state with keys, migrations := state.migrations.insert source target }

/-- Add an outcome to the end of the script. -/
def prepare (state : State) (outcome : Scripted) : State :=
  { state with script := state.script ++ [outcome] }

def forgetCalls (state : State) : State := { state with calls := [] }

/-- The requests for a URI, in order. -/
def requestsFor (state : State) (uri : String) : List Call :=
  state.calls.filter fun call => call.request.uri = uri

/-- A fresh id: thirty-two hexadecimal digits. -/
def drawId (draws : Draws) : String × Draws :=
  let (bytes, draws) := draws.take 16
  (Hex.encode bytes, draws)

/-- Make a key with a secret of thirty-two bytes. -/
def makeKey (state : State) (draws : Draws) : KeyEntry × State × Draws :=
  let (id, draws) := drawId draws
  let (secret, draws) := draws.take 32
  let uri := "kms://" ++ state.host ++ "/keys/" ++ id
  let jwk := Json.record [("kty", some (.str "oct")), ("k", some (.str (Hex.encode secret)))]
  let key : KeyEntry := { uri := some uri, jwk }
  (key, { state with keys := state.keys.insert uri key }, draws)

/-- Make some keys, one after another. -/
def makeKeys : (count : Nat) → State → Draws → List KeyEntry × State × Draws
  | 0, state, draws => ([], state, draws)
  | count + 1, state, draws =>
    let (key, state, draws) := state.makeKey draws
    let (keys, state, draws) := makeKeys count state draws
    (key :: keys, state, draws)

def authorizationsOf (state : State) (resourceUri : String) : List Authorization :=
  (state.authorizations.find? resourceUri).getD []

def masterKeysOf (state : State) (organization : String) (awsKms : Bool) : List MasterKey :=
  (state.masterKeys.find? (organization, awsKms)).getD []

/-- Authorize users on a resource. -/
def authorize (state : State) (resourceUri : String) (userIds : List String) :
    List Authorization × State :=
  let created : List Authorization := userIds.map fun user =>
    { uri := resourceUri ++ "/authorizations/" ++ user, authId := user,
      resourceUri := some resourceUri }
  (created,
    { state with
      resources := state.resources.modify resourceUri fun resource =>
        { resource with
          authorizationUris := resource.authorizationUris ++ created.map Authorization.uri }
      authorizations := state.authorizations.insert resourceUri
        (state.authorizationsOf resourceUri ++ created) })

/-- Create keys; one, unless the request says how many. -/
def createKeys (state : State) (draws : Draws) (request : Request) : Reply × State × Draws :=
  let (keys, state, draws) := makeKeys (request.count.getD 1).toNat state draws
  ({ status := 201, keys }, state, draws)

/-- Create a resource and authorize users on it. -/
def createResource (state : State) (draws : Draws) (request : Request) : Reply × State × Draws :=
  let (id, draws) := drawId draws
  let resource : Resource :=
    { uri := "kms://" ++ state.host ++ "/resources/" ++ id, keyUris := request.keyUris }
  let state := { state with resources := state.resources.insert resource.uri resource }
  let (created, state) := state.authorize resource.uri request.userIds
  let resource := (state.resources.find? resource.uri).getD resource
  ({ status := 201, resource := some resource, authorizations := created }, state, draws)

/-- Create, list or remove authorizations on a resource. -/
def answerAuthorizations (state : State) (request : Request) : Except Refusal (Reply × State) :=
  let resourceUri := request.resourceUri.getD ""
  if !state.resources.contains resourceUri then .error .resourceNotFound
  else
    let held := state.authorizationsOf resourceUri
    match request.method with
    | .create =>
      let (created, state) := state.authorize resourceUri request.userIds
      .ok ({ status := 201, authorizations := created }, state)
    | .retrieve => .ok ({ status := 200, authorizations := held }, state)
    | .delete =>
      let kept := held.filter fun authorization => authorization.authId ≠ request.authId.getD ""
      if kept.length = held.length then .error .authorizationNotFound
      else
        .ok ({ status := 200 },
          { state with authorizations := state.authorizations.insert resourceUri kept })
    | .update => .error .unsupportedMethod

/-- Give one master key of a list the active status and all others the inactive one. -/
def activate (keyId : String) (keys : List MasterKey) : List MasterKey :=
  keys.map fun key =>
    { key with
      status := if key.uri = keyId then MasterKey.Status.active else MasterKey.Status.inactive }

/-- List, add to, relabel or delete the master keys of an organization. -/
def answerMasterKeys (state : State) (draws : Draws) (request : Request) (awsKms : Bool) :
    Except Refusal (Reply × State × Draws) :=
  let organization := request.assignedOrgId.getD ""
  let held := state.masterKeysOf organization awsKms
  let answer (keys : List MasterKey) (draws : Draws) : Except Refusal (Reply × State × Draws) :=
    .ok ({ status := 200, customerMasterKeys := keys },
      { state with masterKeys := state.masterKeys.insert (organization, awsKms) keys }, draws)
  match request.method with
  | .retrieve => .ok ({ status := 200, customerMasterKeys := held }, state, draws)
  | .create =>
    let (uri, draws) := match request.customerMasterKey with
      | some uri => (uri, draws)
      | none => let (id, draws) := drawId draws; ("cmk-" ++ id, draws)
    let status := if held.isEmpty then MasterKey.Status.active else MasterKey.Status.pending
    let added : MasterKey :=
      { uri, status, assignedOrgId := some organization
        backup := request.customerMasterKeyBackup }
    answer (held ++ [added]) draws
  | .update =>
    let keyId := request.keyId.getD ""
    if held.any fun key => key.uri = keyId then answer (activate keyId held) draws
    else .error .masterKeyNotFound
  | .delete => answer [] draws

/-- Answer with the key of a URI. A URI that a key was moved away from is answered with a redirect,
whatever is kept there since. -/
def answerRetrieve (state : State) (uri : String) : Except Refusal Reply :=
  match state.migrations.find? uri with
  | some target =>
    .ok { Reply.failure 301 Failure.keyMigrated "key migrated" with redirectUri := some target }
  | none =>
    match state.keys.find? uri with
    | some key => .ok (.ofKey key)
    | none => .error .keyNotFound

/-- Bind a key to a resource. -/
def answerBind (state : State) (request : Request) : Except Refusal (Reply × State) :=
  match request.resourceUri with
  | none => .error .resourceUriRequired
  | some resourceUri =>
    match state.keys.find? request.uri with
    | none => .error .keyNotFound
    | some key =>
      let key := { key with resourceUri := some resourceUri }
      .ok (.ofKey key,
        { state with
          keys := state.keys.insert request.uri key
          resources := state.resources.modify resourceUri fun resource =>
            { resource with keyUris := resource.keyUris ++ [request.uri] } })

/-- Answer a request by its endpoint. The fixed endpoints come first, so that a key kept under the
path of one is out of reach for the methods which that endpoint serves. -/
def answer (state : State) (draws : Draws) (request : Request) :
    Except Refusal (Reply × State × Draws) :=
  if request.uri = Endpoint.keys ∧ request.method = .create then
    .ok (state.createKeys draws request)
  else if request.uri = Endpoint.resources ∧ request.method = .create then
    .ok (state.createResource draws request)
  else if request.uri = Endpoint.authorizations then
    (state.answerAuthorizations request).map fun (reply, state) => (reply, state, draws)
  else if request.uri = Endpoint.masterKeys false then state.answerMasterKeys draws request false
  else if request.uri = Endpoint.masterKeys true then state.answerMasterKeys draws request true
  else if request.uri = Endpoint.ping ∧ request.method = .update then
    .ok ({ status := 200 }, state, draws)
  else
    match request.method with
    | .retrieve => (state.answerRetrieve request.uri).map fun reply => (reply, state, draws)
    | .update => (state.answerBind request).map fun (reply, state) => (reply, state, draws)
    | .create | .delete => .error .unsupportedRequest

/-- Answer a request under the next request id. -/
def answerNumbered (state : State) (draws : Draws) (request : Request) :
    Except ClientError Reply × State × Draws :=
  let state := { state with answered := state.answered + 1 }
  let requestId := "memory-" ++ toString state.answered
  match state.answer draws request with
  | .ok (reply, state, draws) => (.ok { reply with requestId := some requestId }, state, draws)
  | .error refusal => (.error (.broker (.ofReply (refusal.reply requestId))), state, draws)

/-- Take in a request: log it, then serve the script or, when that is at its end, answer. -/
def receive (state : State) (draws : Draws) (call : Call) :
    Except ClientError Reply × State × Draws :=
  let state := { state with calls := state.calls ++ [call] }
  match state.script with
  | outcome :: script => (outcome.outcome, { state with script }, draws)
  | [] => state.answerNumbered draws call.request

end State

end FieldCrypt.Broker
