import FieldCrypt.Broker.State
import FieldCrypt.Proofs.Broker.Retrieve

/-!
# What the broker does with a request

`Answered` has a constructor for each way in which the broker answers a request, with the tables
that change. Everything else about an answer is read off it. An unscripted broker answers or refuses; a
refusal changes nothing but the log and the count of requests, and neither does any request to
retrieve something.
-/

namespace FieldCrypt.Broker.State

variable {state next : State} {draws draws' : Draws} {request : Request} {reply : Reply}

/-- All that the broker keeps apart from the log and the count of requests. -/
def tables (state : State) : State := { state with calls := [], answered := 0 }

@[simp] theorem tables_noted (state : State) (call : Call) :
    (state.noted call).tables = state.tables := rfl

/-- The authorizations on a resource after the ones on some resource were put in their place. -/
theorem authorizationsOf_of_insert {about : String} {held : List Authorization}
    (changed : next.authorizations = state.authorizations.insert about held) (resource : String) :
    next.authorizationsOf resource =
      if about = resource then held else state.authorizationsOf resource := by
  rw [authorizationsOf, changed, Table.find?_insert]
  split <;> rfl

/-- The master keys of an organization after the ones of some organization were put in their place. -/
theorem masterKeysOf_of_insert {organization : String} {awsKms : Bool} {held : List MasterKey}
    (changed : next.masterKeys = state.masterKeys.insert (organization, awsKms) held)
    (other : String) (kind : Bool) :
    next.masterKeysOf other kind =
      if (organization, awsKms) = (other, kind) then held else state.masterKeysOf other kind := by
  rw [masterKeysOf, changed, Table.find?_insert]
  split <;> rfl

/-- Making keys adds to the keys. -/
theorem exists_keys_makeKeys (count : Nat) (state : State) (draws : Draws) :
    ∃ keys, (makeKeys count state draws).2.1 = { state with keys } := by
  induction count generalizing state draws with
  | zero => exact ⟨state.keys, rfl⟩
  | succ count ih => exact ih (state.makeKey draws).2.1 (state.makeKey draws).2.2

theorem exists_keys_createKeys (state : State) (draws : Draws) (request : Request) :
    ∃ keys, (state.createKeys draws request).2.1 = { state with keys } :=
  exists_keys_makeKeys (request.count.getD 1).toNat state draws

/-- An authorization as it is made for a user. -/
def entry (resourceUri user : String) : Authorization where
  uri := resourceUri ++ "/authorizations/" ++ user
  authId := user
  resourceUri := some resourceUri

theorem authorize_eq (state : State) (resourceUri : String) (userIds : List String) :
    ∃ resources, state.authorize resourceUri userIds = (userIds.map (entry resourceUri),
      { state with
        resources
        authorizations := state.authorizations.insert resourceUri
          (state.authorizationsOf resourceUri ++ userIds.map (entry resourceUri)) }) ∧
      ∀ uri, resources.contains uri = state.resources.contains uri := by
  refine ⟨_, rfl, fun uri => ?_⟩
  rw [Table.contains, Table.find?_modify]
  split
  · rename_i same
    rw [Option.isSome_map, ← same]
    rfl
  · rfl

/-- The resource that is created next. -/
def newResource (state : State) (draws : Draws) (request : Request) : Resource :=
  let uri := "kms://" ++ state.host ++ "/resources/" ++ (drawId draws).1
  { uri
    keyUris := request.keyUris
    authorizationUris := (request.userIds.map (entry uri)).map Authorization.uri }

/-- A resource that was created is among the resources, whatever was there under its URI. -/
theorem find?_createResource (state : State) (draws : Draws) (request : Request) (uri : String) :
    (state.createResource draws request).2.1.resources.find? uri =
      if (state.newResource draws request).uri = uri then some (state.newResource draws request)
      else state.resources.find? uri := by
  let resource := state.newResource draws request
  have placed : (state.createResource draws request).2.1.resources =
      (state.resources.insert resource.uri { resource with authorizationUris := [] }).modify
        resource.uri fun created => { created with
          authorizationUris := created.authorizationUris ++ resource.authorizationUris } := rfl
  rw [placed, Table.find?_modify]
  by_cases same : resource.uri = uri
  · rw [if_pos same, if_pos same, Table.find?_insert, if_pos rfl]
    rfl
  · rw [if_neg same, if_neg same, Table.find?_insert, if_neg same]

/-- It is handed out with the authorizations on it. -/
theorem createResource_reply (state : State) (draws : Draws) (request : Request) :
    (state.createResource draws request).1 = {
      status := 201
      resource := some (state.newResource draws request)
      authorizations := request.userIds.map (entry (state.newResource draws request).uri) } := by
  have found := state.find?_createResource draws request (state.newResource draws request).uri
  rw [if_pos rfl] at found
  change { status := 201
           resource := some (((state.createResource draws request).2.1.resources.find?
             (state.newResource draws request).uri).getD _)
           authorizations := request.userIds.map (entry (state.newResource draws request).uri) :
             Reply } = _
  rw [found]
  rfl

/-- Creating a resource puts it among the resources and authorizes the users on it. -/
theorem createResource_eq (state : State) (draws : Draws) (request : Request) :
    ∃ resource resources, (state.createResource draws request).1 = {
        status := 201
        resource := some resource
        authorizations := request.userIds.map (entry resource.uri) } ∧
      (state.createResource draws request).2.1 = { state with
        resources
        authorizations := state.authorizations.insert resource.uri
          (state.authorizationsOf resource.uri ++ request.userIds.map (entry resource.uri)) } ∧
      resource.uri = "kms://" ++ state.host ++ "/resources/" ++ (drawId draws).1 ∧
      ∀ uri, resources.contains uri =
        (decide (uri = resource.uri) || state.resources.contains uri) := by
  let resource := state.newResource draws request
  let resources := (state.createResource draws request).2.1.resources
  refine ⟨resource, resources, state.createResource_reply draws request, rfl, rfl, fun other => ?_⟩
  rw [Table.contains, find?_createResource]
  by_cases same : resource.uri = other
  · simp [same, resource]
  · simp [same, Ne.symm same, resource, Table.contains]

/-- The URI of a master key that is registered: the one that is given, or a fresh one. -/
def newMasterKeyUri (draws : Draws) (request : Request) : String × Draws :=
  match request.customerMasterKey with
  | some uri => (uri, draws)
  | none => ("cmk-" ++ (drawId draws).1, (drawId draws).2)

/-- What becomes of the master keys of an organization when they are not only listed. -/
inductive Relabelled (draws : Draws) (request : Request) (held : List MasterKey) :
    List MasterKey → Draws → Prop where
  | register (method : request.method = .create) :
      Relabelled draws request held
        (held ++ [{
          uri := (newMasterKeyUri draws request).1
          status := if held.isEmpty then MasterKey.Status.active else MasterKey.Status.pending
          assignedOrgId := some (request.assignedOrgId.getD "")
          backup := request.customerMasterKeyBackup }])
        (newMasterKeyUri draws request).2
  | activate (method : request.method = .update)
      (there : ∃ key ∈ held, key.uri = request.keyId.getD "") :
      Relabelled draws request held (activate (request.keyId.getD "") held) draws
  | delete (method : request.method = .delete) : Relabelled draws request held [] draws

/-- The ways in which the broker answers a request: the reply, the broker afterwards, and what is
left of the random bytes. -/
inductive Answered (state : State) (draws : Draws) (request : Request) :
    Reply → State → Draws → Prop where
  | createKeys (uri : request.uri = Endpoint.keys) (method : request.method = .create) :
      Answered state draws request (state.createKeys draws request).1
        (state.createKeys draws request).2.1 (state.createKeys draws request).2.2
  | createResource (uri : request.uri = Endpoint.resources) (method : request.method = .create) :
      Answered state draws request (state.createResource draws request).1
        (state.createResource draws request).2.1 (state.createResource draws request).2.2
  | authorize {resource : String} (uri : request.uri = Endpoint.authorizations)
      (method : request.method = .create) (about : request.resourceUri.getD "" = resource)
      (known : state.resources.contains resource = true) :
      Answered state draws request
        { status := 201, authorizations := (state.authorize resource request.userIds).1 }
        (state.authorize resource request.userIds).2 draws
  | authorizations {resource : String} (uri : request.uri = Endpoint.authorizations)
      (method : request.method = .retrieve) (about : request.resourceUri.getD "" = resource)
      (known : state.resources.contains resource = true) :
      Answered state draws request
        { status := 200, authorizations := state.authorizationsOf resource } state draws
  | revoke {resource : String} (uri : request.uri = Endpoint.authorizations)
      (method : request.method = .delete) (about : request.resourceUri.getD "" = resource)
      (known : state.resources.contains resource = true)
      (listed : ∃ authorization ∈ state.authorizationsOf resource,
        authorization.authId = request.authId.getD "") :
      Answered state draws request { status := 200 }
        { state with
          authorizations := state.authorizations.insert resource
            ((state.authorizationsOf resource).filter fun authorization =>
              authorization.authId ≠ request.authId.getD "") } draws
  | masterKeys {awsKms : Bool} (uri : request.uri = Endpoint.masterKeys awsKms)
      (method : request.method = .retrieve) :
      Answered state draws request
        { status := 200
          customerMasterKeys := state.masterKeysOf (request.assignedOrgId.getD "") awsKms }
        state draws
  | changeMasterKeys {awsKms : Bool} {keys : List MasterKey} {draws' : Draws}
      (uri : request.uri = Endpoint.masterKeys awsKms)
      (relabelled : Relabelled draws request
        (state.masterKeysOf (request.assignedOrgId.getD "") awsKms) keys draws') :
      Answered state draws request { status := 200, customerMasterKeys := keys }
        { state with
          masterKeys := state.masterKeys.insert (request.assignedOrgId.getD "", awsKms) keys }
        draws'
  | ping (uri : request.uri = Endpoint.ping) (method : request.method = .update) :
      Answered state draws request { status := 200 } state draws
  | retrieve {reply : Reply} (method : request.method = .retrieve)
      (found : state.answerRetrieve request.uri = .ok reply) :
      Answered state draws request reply state draws
  | bind {resource : String} {key : KeyEntry} (method : request.method = .update)
      (about : request.resourceUri = some resource)
      (found : state.keys.find? request.uri = some key) :
      Answered state draws request (.ofKey { key with resourceUri := some resource })
        { state with
          keys := state.keys.insert request.uri { key with resourceUri := some resource }
          resources := state.resources.modify resource fun resource =>
            { resource with keyUris := resource.keyUris ++ [request.uri] } } draws

theorem answered_authorizations (uri : request.uri = Endpoint.authorizations)
    (answers : state.answerAuthorizations request = .ok (reply, next)) :
    Answered state draws request reply next draws := by
  unfold answerAuthorizations at answers
  simp only at answers
  split at answers
  · cases answers
  · rename_i unknown
    have known : state.resources.contains (request.resourceUri.getD "") = true := by
      simpa using unknown
    split at answers
    · rename_i method
      obtain ⟨rfl, rfl⟩ := Prod.mk.inj (Except.ok.inj answers)
      exact .authorize uri method rfl known
    · rename_i method
      obtain ⟨rfl, rfl⟩ := Prod.mk.inj (Except.ok.inj answers)
      exact .authorizations uri method rfl known
    · rename_i method
      split at answers
      · cases answers
      · rename_i shorter
        obtain ⟨rfl, rfl⟩ := Prod.mk.inj (Except.ok.inj answers)
        refine .revoke uri method rfl known (Classical.byContradiction fun nobody => ?_)
        apply shorter
        rw [List.length_filter_eq_length_iff]
        intro authorization there
        exact decide_eq_true fun same => nobody ⟨authorization, there, same⟩
    · cases answers

theorem answered_masterKeys {awsKms : Bool} (uri : request.uri = Endpoint.masterKeys awsKms)
    (answers : state.answerMasterKeys draws request awsKms = .ok (reply, next, draws')) :
    Answered state draws request reply next draws' := by
  unfold answerMasterKeys at answers
  simp only at answers
  split at answers
  · rename_i method
    cases answers
    exact .masterKeys uri method
  · rename_i method
    have register : Relabelled draws request
        (state.masterKeysOf (request.assignedOrgId.getD "") awsKms) _ _ := .register method
    unfold newMasterKeyUri at register
    split at answers
    · rename_i named
      rw [named] at register
      cases answers
      exact .changeMasterKeys uri register
    · rename_i nameless
      rw [nameless] at register
      cases answers
      exact .changeMasterKeys uri register
  · rename_i method
    split at answers
    · rename_i there
      cases answers
      refine .changeMasterKeys uri (.activate method ?_)
      obtain ⟨key, held, same⟩ := List.any_eq_true.mp there
      exact ⟨key, held, of_decide_eq_true same⟩
    · cases answers
  · rename_i method
    cases answers
    exact .changeMasterKeys uri (.delete method)

theorem answered_bind (method : request.method = .update)
    (answers : state.answerBind request = .ok (reply, next)) :
    Answered state draws request reply next draws := by
  unfold answerBind at answers
  split at answers
  · cases answers
  · rename_i resource about
    split at answers
    · cases answers
    · rename_i key found
      obtain ⟨rfl, rfl⟩ := Prod.mk.inj (Except.ok.inj answers)
      exact .bind method about found

theorem exists_of_map_eq_ok {ε α β : Type} {outcome : Except ε α} {f : α → β} {result : β}
    (mapped : outcome.map f = .ok result) : ∃ first, outcome = .ok first ∧ f first = result := by
  cases outcome with
  | error error => cases mapped
  | ok first => exact ⟨first, rfl, Except.ok.inj mapped⟩

/-- An answer is one of these. -/
theorem answered_of_ok (answers : state.answer draws request = .ok (reply, next, draws')) :
    Answered state draws request reply next draws' := by
  unfold answer at answers
  split at answers
  · rename_i keys
    cases answers
    exact .createKeys keys.1 keys.2
  split at answers
  · rename_i resources
    cases answers
    exact .createResource resources.1 resources.2
  split at answers
  · rename_i uri
    obtain ⟨first, found, same⟩ := exists_of_map_eq_ok answers
    cases same
    exact answered_authorizations uri found
  split at answers
  · rename_i uri
    exact answered_masterKeys uri answers
  split at answers
  · rename_i uri
    exact answered_masterKeys uri answers
  split at answers
  · rename_i ping
    cases answers
    exact .ping ping.1 ping.2
  split at answers
  · rename_i method
    obtain ⟨first, found, same⟩ := exists_of_map_eq_ok answers
    cases same
    exact .retrieve method found
  · rename_i method
    obtain ⟨first, found, same⟩ := exists_of_map_eq_ok answers
    cases same
    exact answered_bind method found
  · cases answers
  · cases answers

/-- Whatever is asked for, an answer touches neither the script nor the host. -/
theorem Answered.script (answered : Answered state draws request reply next draws') :
    next.script = state.script := by
  cases answered with
  | createKeys =>
      obtain ⟨keys, made⟩ := state.exists_keys_createKeys draws request
      rw [made]
  | _ => rfl

/-- The log is written before a request is answered. -/
theorem Answered.calls (answered : Answered state draws request reply next draws') :
    next.calls = state.calls := by
  cases answered with
  | createKeys =>
      obtain ⟨keys, made⟩ := state.exists_keys_createKeys draws request
      rw [made]
  | _ => rfl

/-- Master keys change through their own endpoints only. -/
theorem Answered.masterKeys_eq (answered : Answered state draws request reply next draws')
    (apart : ∀ awsKms, request.uri ≠ Endpoint.masterKeys awsKms) :
    next.masterKeys = state.masterKeys := by
  cases answered with
  | createKeys =>
      obtain ⟨keys, made⟩ := state.exists_keys_createKeys draws request
      rw [made]
  | changeMasterKeys uri => exact (apart _ uri).elim
  | _ => rfl

/-- What is retrieved is a key or a redirect. -/
theorem answerRetrieve_cases {uri : String} (found : state.answerRetrieve uri = .ok reply) :
    (∃ target, reply = { Reply.failure 301 Failure.keyMigrated "key migrated" with
      redirectUri := some target }) ∨ ∃ key, reply = .ofKey key := by
  unfold answerRetrieve at found
  split at found
  · exact .inl ⟨_, (Except.ok.inj found).symm⟩
  · split at found
    · exact .inr ⟨_, (Except.ok.inj found).symm⟩
    · cases found

/-- No answer reports a failure. -/
theorem Answered.not_failure (answered : Answered state draws request reply next draws') :
    reply.isFailure = false := by
  cases answered with
  | retrieve method found =>
      rcases answerRetrieve_cases found with ⟨target, rfl⟩ | ⟨key, rfl⟩ <;> rfl
  | _ => rfl

/-- What is only retrieved stays as it is. -/
theorem Answered.eq_of_retrieve (answered : Answered state draws request reply next draws')
    (method : request.method = .retrieve) : next = state := by
  cases answered with
  | authorizations | masterKeys | retrieve | ping => rfl
  | changeMasterKeys uri relabelled =>
      cases relabelled with
      | register other | activate other | delete other =>
          rw [method] at other
          cases other
  | createKeys uri other | createResource uri other | authorize uri other | revoke uri other
  | bind other =>
      rw [method] at other
      cases other

/-- The id of the next request. -/
def nextRequestId (state : State) : String := "memory-" ++ toString (state.answered + 1)

/-- The ways in which an unscripted broker deals with a call. -/
inductive Received (state : State) (draws : Draws) (call : Call) :
    Except ClientError Reply × State × Draws → Prop where
  | answered {reply : Reply} {next : State} {draws' : Draws}
      (answered : Answered (state.noted call) draws call.request reply next draws') :
      Received state draws call
        (.ok { reply with requestId := some state.nextRequestId }, next, draws')
  | refused {refusal : Refusal}
      (refused : (state.noted call).answer draws call.request = .error refusal) :
      Received state draws call
        (.error (.broker (.ofReply (refusal.reply state.nextRequestId))), state.noted call, draws)

/-- The broker answers under the next request id, and with its log one call longer. -/
theorem receive_eq (unscripted : state.script = []) (draws : Draws) (call : Call) :
    state.receive draws call =
      match (state.noted call).answer draws call.request with
      | .ok (reply, next, draws) =>
        (.ok { reply with requestId := some state.nextRequestId }, next, draws)
      | .error refusal =>
        (.error (.broker (.ofReply (refusal.reply state.nextRequestId))), state.noted call,
          draws) := by
  unfold receive
  simp only
  split
  · rename_i found
    cases unscripted.symm.trans found
  · rfl

theorem received (unscripted : state.script = []) (draws : Draws) (call : Call) :
    Received state draws call (state.receive draws call) := by
  rw [receive_eq unscripted]
  cases answers : (state.noted call).answer draws call.request with
  | error refusal => exact .refused answers
  | ok answer =>
      obtain ⟨reply, next, draws'⟩ := answer
      exact .answered (answered_of_ok answers)

theorem unscripted_receive (unscripted : state.script = []) (draws : Draws) (call : Call) :
    (state.receive draws call).2.1.script = [] := by
  have received := received unscripted draws call
  generalize state.receive draws call = came at received ⊢
  cases received with
  | answered answered => exact answered.script.trans unscripted
  | refused => exact unscripted

theorem calls_receive (unscripted : state.script = []) (draws : Draws) (call : Call) :
    (state.receive draws call).2.1.calls = state.calls ++ [call] := by
  have received := received unscripted draws call
  generalize state.receive draws call = came at received ⊢
  cases received with
  | answered answered => exact answered.calls
  | refused => rfl

/-- A call that only retrieves something leaves all tables as they are. -/
theorem tables_receive_retrieve (unscripted : state.script = []) (draws : Draws) {call : Call}
    (method : call.request.method = .retrieve) :
    (state.receive draws call).2.1.tables = state.tables := by
  have received := received unscripted draws call
  generalize state.receive draws call = came at received ⊢
  cases received with
  | answered answered => rw [answered.eq_of_retrieve method, tables_noted]
  | refused => exact tables_noted state call

end FieldCrypt.Broker.State
