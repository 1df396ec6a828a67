import FieldCrypt.Client.Basic
import FieldCrypt.Proofs.Routine.Run

/-!
# Actions of a client

Whatever can be asked of a client, as data. Resolving a key may take a second request. Every other
action either lacks an argument, and then nothing is sent, or it is one exchange with the broker
whose reply is read.
-/

namespace FieldCrypt.Client

open Broker

/-- What can be asked of a client. -/
inductive Action where
  | resolveKey (uri : KeyUri) (options : Options)
  | createKeys (count : UInt32)
  | bindKey (resourceUri : String) (uri : KeyUri)
  | createResource (keyUris : List KeyUri) (userIds : List String)
  | authorize (resourceUri : String) (userIds : List String)
  | authorizations (resourceUri : String)
  | revoke (resourceUri userId : String)
  | masterKeys (scope : MasterKeyScope)
  | registerMasterKey (upload : MasterKeyUpload)
  | activateMasterKey (scope : MasterKeyScope) (keyId : String)
  | deleteMasterKeys (scope : MasterKeyScope)
  | ping

namespace Action

/-- The type of the answer to an action. -/
def Answer : Action → Type
  | resolveKey .. | bindKey .. => KeyMaterial
  | createKeys _ => List KeyMaterial
  | createResource .. => Resource
  | authorize .. | authorizations _ => List Authorization
  | masterKeys _ | registerMasterKey _ | activateMasterKey .. | deleteMasterKeys _ => List MasterKey
  | revoke .. | ping => Unit

/-- What a client does. -/
def perform (client : Client) :
    (action : Action) → Routine Effect (Except ClientError action.Answer)
  | resolveKey uri options => client.resolveKey uri options
  | createKeys count => Client.createKeys count
  | bindKey resourceUri uri => Client.bindKey resourceUri uri
  | createResource keyUris userIds => Client.createResource keyUris userIds
  | authorize resourceUri userIds => Client.authorize resourceUri userIds
  | authorizations resourceUri => Client.authorizations resourceUri
  | revoke resourceUri userId => Client.revoke resourceUri userId
  | masterKeys scope => Client.masterKeys scope
  | registerMasterKey upload => Client.registerMasterKey upload
  | activateMasterKey scope keyId => Client.activateMasterKey scope keyId
  | deleteMasterKeys scope => Client.deleteMasterKeys scope
  | ping => Client.ping

/-- The action may take a second request. -/
def Resolves : Action → Prop
  | resolveKey .. => True
  | _ => False

/-- The request for an action, or the argument that it lacks. -/
def request : Action → Except Argument Request
  | resolveKey uri _ => if uri.isEmpty then .error .uri else .ok (.retrieve uri.text)
  | createKeys count => .ok (.createKeys count)
  | bindKey resourceUri uri =>
    if resourceUri.isEmpty then .error .resourceUri
    else if uri.isEmpty then .error .keyUri
    else .ok { method := .update, uri := uri.text, resourceUri := some resourceUri }
  | createResource keyUris userIds =>
    .ok { method := .create, uri := Endpoint.resources, keyUris := keyUris.map KeyUri.text,
          userIds }
  | authorize resourceUri userIds =>
    if resourceUri.isEmpty then .error .resourceUri
    else .ok { method := .create, uri := Endpoint.authorizations, resourceUri := some resourceUri,
               userIds }
  | authorizations resourceUri =>
    if resourceUri.isEmpty then .error .resourceUri
    else .ok { method := .retrieve, uri := Endpoint.authorizations,
               resourceUri := some resourceUri }
  | revoke resourceUri userId =>
    if userId.isEmpty then .error .authId
    else if resourceUri.isEmpty then .error .resourceUri
    else .ok { method := .delete, uri := Endpoint.authorizations, resourceUri := some resourceUri,
               authId := some userId }
  | masterKeys scope => .ok (scope.request .retrieve)
  | registerMasterKey upload => .ok upload.request
  | activateMasterKey scope keyId =>
    if keyId.isEmpty then .error .keyId
    else .ok { scope.request .update with keyId := some keyId }
  | deleteMasterKeys scope => .ok (scope.request .delete)
  | ping => .ok { method := .update, uri := Endpoint.ping }

/-- The answer that a client reads off a reply that does not report a failure. -/
def read : (action : Action) → Reply → Except ClientError action.Answer
  | resolveKey uri _, reply => keyOf uri reply
  | createKeys _, reply => materials reply.keys
  | bindKey _ uri, reply => keyOf uri reply
  | createResource .., reply =>
    match reply.resource with
    | some resource => .ok resource
    | none => .error (.unusable "response carries no resource")
  | authorize .., reply | authorizations _, reply => .ok reply.authorizations
  | masterKeys _, reply | registerMasterKey _, reply | activateMasterKey .., reply
  | deleteMasterKeys _, reply => .ok reply.customerMasterKeys
  | revoke .., _ | ping, _ => .ok ()

/-- What an action comes to after the outcome of its request. -/
def conclude (action : Action) (outcome : Except ClientError Reply) :
    Except ClientError action.Answer :=
  (checked outcome).bind action.read

/-- What is read off a reply is what it comes to. -/
theorem conclude_ok (action : Action) {reply : Reply} (succeeds : reply.isFailure = false) :
    action.conclude (.ok reply) = action.read reply := by
  rw [conclude, checked]
  simp only [succeeds, Bool.false_eq_true, if_false]
  rfl

/-- One exchange and no more, unless an argument is missing. -/
def once (action : Action) : Routine Effect (Except ClientError action.Answer) :=
  match action.request with
  | .error argument => .done (.error (.missing argument))
  | .ok request => .pause (.call (.send { request, options := none })
      fun outcome => .done (action.conclude outcome))

/-- An action that reads the reply of one exchange takes no more than that. -/
theorem once_of_exchange (action : Action) {request : Request}
    (needs : action.request = .ok request)
    {next : Except ClientError Reply → Routine Effect (Except ClientError action.Answer)}
    (reads : ∀ outcome, next outcome = .done (outcome.bind action.read)) :
    (exchange request >>= next) = action.once := by
  rw [once, needs]
  exact congrArg Routine.pause (congrArg (Routine.call _) (funext fun _ => reads _))

/-- An action that looks at an argument first. -/
theorem once_of_guarded (action : Action) {argument : Argument} {empty : Bool}
    {rest : Routine Effect (Except ClientError action.Answer)}
    (lacks : empty = true → action.request = .error argument)
    (goes : ¬ empty = true → rest = action.once) :
    (if empty = true then .done (.error (.missing argument)) else rest) = action.once := by
  split
  · rename_i missing
    rw [once, lacks missing]
  · rename_i given
    exact goes given

/-- What has a request has the argument that is looked at first. -/
theorem given_of_ok {argument : Argument} {empty : Bool} {rest : Except Argument Request}
    {request : Request}
    (needs : (if empty = true then .error argument else rest) = .ok request) :
    rest = .ok request := by
  split at needs
  · cases needs
  · exact needs

/-- But for the resolving of keys, an action is one exchange or none. -/
theorem perform_eq_once (client : Client) {action : Action} (single : ¬ action.Resolves) :
    action.perform client = action.once := by
  cases action with
  | resolveKey uri options => exact (single trivial).elim
  | createKeys count =>
      refine once_of_exchange (.createKeys count) rfl ?_
      rintro (_ | _) <;> rfl
  | bindKey resourceUri uri =>
      refine once_of_guarded (.bindKey resourceUri uri) (fun empty => if_pos empty) fun full => ?_
      refine once_of_guarded (.bindKey resourceUri uri)
        (fun empty => (if_neg full).trans (if_pos empty)) fun named => ?_
      refine once_of_exchange (.bindKey resourceUri uri) ((if_neg full).trans (if_neg named)) ?_
      rintro (_ | _) <;> rfl
  | createResource keyUris userIds =>
      refine once_of_exchange (.createResource keyUris userIds) rfl ?_
      rintro (error | reply)
      · rfl
      · change _ = Routine.done (read (.createResource keyUris userIds) reply)
        simp only [read]
        cases reply.resource <;> rfl
  | authorize resourceUri userIds =>
      refine once_of_guarded (.authorize resourceUri userIds) (fun empty => if_pos empty)
        fun full => once_of_exchange (.authorize resourceUri userIds) (if_neg full) ?_
      rintro (_ | _) <;> rfl
  | authorizations resourceUri =>
      refine once_of_guarded (.authorizations resourceUri) (fun empty => if_pos empty)
        fun full => once_of_exchange (.authorizations resourceUri) (if_neg full) ?_
      rintro (_ | _) <;> rfl
  | revoke resourceUri userId =>
      refine once_of_guarded (.revoke resourceUri userId) (fun empty => if_pos empty)
        fun named => ?_
      simp only [aboutAuthorizations]
      split
      · rename_i empty
        simp only [once, request, if_neg named, if_pos empty]
        rfl
      · rename_i full
        rw [bind_assoc]
        refine once_of_exchange (.revoke resourceUri userId) ((if_neg named).trans (if_neg full)) ?_
        rintro (_ | _) <;> rfl
  | masterKeys scope =>
      refine once_of_exchange (.masterKeys scope) rfl ?_
      rintro (_ | _) <;> rfl
  | registerMasterKey upload =>
      refine once_of_exchange (.registerMasterKey upload) rfl ?_
      rintro (_ | _) <;> rfl
  | activateMasterKey scope keyId =>
      refine once_of_guarded (.activateMasterKey scope keyId) (fun empty => if_pos empty)
        fun given => once_of_exchange (.activateMasterKey scope keyId) (if_neg given) ?_
      rintro (_ | _) <;> rfl
  | deleteMasterKeys scope =>
      refine once_of_exchange (.deleteMasterKeys scope) rfl ?_
      rintro (_ | _) <;> rfl
  | ping =>
      refine once_of_exchange .ping rfl ?_
      rintro (_ | _) <;> rfl

variable {σ : Type} (environment : Environment σ) (shared : Shared σ) {action : Action}

/-- Nothing is sent when an argument is missing. -/
theorem run_once_lacking {argument : Argument} (lacks : action.request = .error argument) :
    Routine.run environment.handle action.once shared =
      some (.error (.missing argument), shared) := by
  rw [once, lacks]
  exact Routine.run_done _ shared

/-- Otherwise the outcome of the one request decides. -/
theorem run_once_asking {request : Request} (needs : action.request = .ok request) :
    Routine.run environment.handle action.once shared =
      some (action.conclude (environment.send ⟨request, none⟩ shared.outside).1,
        { shared with outside := (environment.send ⟨request, none⟩ shared.outside).2 }) := by
  rw [once, needs]
  simp only
  rw [Routine.run_pause, Routine.run_call rfl, Routine.run_done]

end Action

end FieldCrypt.Client
