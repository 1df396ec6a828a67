import FieldCrypt.Proofs.Broker.SameTables

/-!
# Calls that fail

A broker can work on its tables as it goes: it opens a list before it knows that it needs one, takes
authorizations away before it counts them, and stops in the middle when it refuses. It comes to the
same as one that looks first, but for empty lists. So a call that fails leaves nothing behind in the
tables, whichever way it is dealt with, and no later call can tell that there was one.
-/

namespace FieldCrypt.Broker

namespace State

/-- Have a list of authorizations on a resource, if an empty one. -/
def openAuthorizations (state : State) (resourceUri : String) : State :=
  { state with
    authorizations := state.authorizations.insert resourceUri (state.authorizationsOf resourceUri) }

/-- Have a list of master keys of an organization, if an empty one. -/
def openMasterKeys (state : State) (organization : String) (awsKms : Bool) : State :=
  { state with
    masterKeys := state.masterKeys.insert (organization, awsKms)
      (state.masterKeysOf organization awsKms) }

/-- Create or list authorizations on a resource, or remove some and see whether there were any. -/
def workAuthorizations (state : State) (request : Request) : Except Refusal Reply × State :=
  let resourceUri := request.resourceUri.getD ""
  if !state.resources.contains resourceUri then (.error .resourceNotFound, state)
  else
    match request.method with
    | .create =>
      let (created, state) := state.authorize resourceUri request.userIds
      (.ok { status := 201, authorizations := created }, state)
    | .retrieve =>
      (.ok { status := 200, authorizations := state.authorizationsOf resourceUri }, state)
    | .delete =>
      let state := state.openAuthorizations resourceUri
      let held := state.authorizationsOf resourceUri
      let kept := held.filter fun authorization => authorization.authId ≠ request.authId.getD ""
      let state := { state with authorizations := state.authorizations.insert resourceUri kept }
      if kept.length = held.length then (.error .authorizationNotFound, state)
      else (.ok { status := 200 }, state)
    | .update => (.error .unsupportedMethod, state)

/-- Have a list of master keys, whatever is asked for, and then list it or change it. -/
def workMasterKeys (state : State) (draws : Draws) (request : Request) (awsKms : Bool) :
    Except Refusal Reply × State × Draws :=
  let organization := request.assignedOrgId.getD ""
  let state := state.openMasterKeys organization awsKms
  let held := state.masterKeysOf organization awsKms
  let answer (keys : List MasterKey) (draws : Draws) : Except Refusal Reply × State × Draws :=
    (.ok { status := 200, customerMasterKeys := keys },
      { state with masterKeys := state.masterKeys.insert (organization, awsKms) keys }, draws)
  match request.method with
  | .retrieve => (.ok { status := 200, customerMasterKeys := held }, state, draws)
  | .create =>
    let (uri, draws) := match request.customerMasterKey with
      | some uri => (uri, draws)
      | none => let (id, draws) := drawId draws; ("cmk-" ++ id, draws)
    let status := if held.isEmpty then MasterKey.Status.active else MasterKey.Status.pending
    let added : MasterKey :=
      { uri, status, assignedOrgId := some organization
        backup := request.customerMasterKeyBackup }
    answer (held ++ [added]) draws
  | .update =>
    let keyId := request.keyId.getD ""
    if held.any fun key => key.uri = keyId then answer (activate keyId held) draws
    else (.error .masterKeyNotFound, state, draws)
  | .delete => answer [] draws

/-- Bind a key to a resource where it is kept. -/
def workBind (state : State) (request : Request) : Except Refusal Reply × State :=
  match request.resourceUri with
  | none => (.error .resourceUriRequired, state)
  | some resourceUri =>
    match state.keys.find? request.uri with
    | none => (.error .keyNotFound, state)
    | some key =>
      let bound (key : KeyEntry) : KeyEntry := { key with resourceUri := some resourceUri }
      let state := { state with keys := state.keys.modify request.uri bound }
      let state := { state with
        resources := state.resources.modify resourceUri fun resource =>
          { resource with keyUris := resource.keyUris ++ [request.uri] } }
      (.ok (.ofKey (bound key)), state)

/-- Work on a request. What was done before a refusal stays done. -/
def work (state : State) (draws : Draws) (request : Request) :
    Except Refusal Reply × State × Draws :=
  let undrawn (done : Except Refusal Reply × State) : Except Refusal Reply × State × Draws :=
    (done.1, done.2, draws)
  if request.uri = Endpoint.keys ∧ request.method = .create then
    let (reply, state, draws) := state.createKeys draws request
    (.ok reply, state, draws)
  else if request.uri = Endpoint.resources ∧ request.method = .create then
    let (reply, state, draws) := state.createResource draws request
    (.ok reply, state, draws)
  else if request.uri = Endpoint.authorizations then undrawn (state.workAuthorizations request)
  else if request.uri = Endpoint.masterKeys false then state.workMasterKeys draws request false
  else if request.uri = Endpoint.masterKeys true then state.workMasterKeys draws request true
  else if request.uri = Endpoint.ping ∧ request.method = .update then
    (.ok { status := 200 }, state, draws)
  else
    match request.method with
    | .retrieve => undrawn (state.answerRetrieve request.uri, state)
    | .update => undrawn (state.workBind request)
    | .create | .delete => (.error .unsupportedRequest, state, draws)

/-- Work on a request under the next request id. -/
def workNumbered (state : State) (draws : Draws) (request : Request) :
    Except ClientError Reply × State × Draws :=
  let state := { state with answered := state.answered + 1 }
  let requestId := "memory-" ++ toString state.answered
  match state.work draws request with
  | (.ok reply, state, draws) => (.ok { reply with requestId := some requestId }, state, draws)
  | (.error refusal, state, draws) =>
    (.error (.broker (.ofReply (refusal.reply requestId))), state, draws)

/-- Take in a request: log it, then serve the script or, when that is at its end, work. -/
def process (state : State) (draws : Draws) (call : Call) :
    Except ClientError Reply × State × Draws :=
  let state := { state with calls := state.calls ++ [call] }
  match state.script with
  | outcome :: script => (outcome.outcome, { state with script }, draws)
  | [] => state.workNumbered draws call.request

/-- The same is found in the tables, and all else is equal. -/
structure Mirrors (first second : State) : Prop extends first.SameTables second where
  calls : first.calls = second.calls
  script : first.script = second.script
  answered : first.answered = second.answered

theorem Mirrors.refl (state : State) : state.Mirrors state := ⟨.refl state, rfl, rfl, rfl⟩

/-- An empty list is as good as none. -/
theorem openAuthorizations_mirrors (state : State) (resourceUri : String) :
    (state.openAuthorizations resourceUri).Mirrors state :=
  { Mirrors.refl state with
    authorizations := fun uri => by
      rw [authorizationsOf_of_insert rfl]
      split
      · rename_i same
        rw [same]
      · rfl }

theorem openMasterKeys_mirrors (state : State) (organization : String) (awsKms : Bool) :
    (state.openMasterKeys organization awsKms).Mirrors state :=
  { Mirrors.refl state with
    masterKeys := fun other kind => by
      rw [masterKeysOf_of_insert rfl]
      split
      · rename_i same
        cases same
        rfl
      · rfl }

/-- Work in place that comes to what was found by looking first. -/
inductive Comes (state : State) (draws : Draws) :
    Except Refusal (Reply × State × Draws) → Except Refusal Reply × State × Draws → Prop where
  | refused (refusal : Refusal) {next : State} (mirrors : next.Mirrors state) :
      Comes state draws (.error refusal) (.error refusal, next, draws)
  | answered (reply : Reply) {next other : State} (mirrors : next.Mirrors other)
      (rest : Draws) : Comes state draws (.ok (reply, other, rest)) (.ok reply, next, rest)

theorem comes_authorizations (state : State) (draws : Draws) (request : Request) :
    Comes state draws
      ((state.answerAuthorizations request).map fun (reply, next) => (reply, next, draws))
      ((state.workAuthorizations request).1, (state.workAuthorizations request).2, draws) := by
  simp only [answerAuthorizations, workAuthorizations]
  generalize request.resourceUri.getD "" = resource
  have opened := state.openAuthorizations_mirrors resource
  split
  · exact .refused _ (.refl state)
  · cases request.method with
    | create => exact .answered _ (.refl _) draws
    | retrieve => exact .answered _ (.refl _) draws
    | update => exact .refused _ (.refl state)
    | delete =>
        rw [opened.authorizations resource]
        simp only
        split
        · rename_i nobody
          -- Where nobody was taken away, the list that is put back is the one that was there.
          rw [List.length_filter_eq_length_iff, ← List.filter_eq_self] at nobody
          rw [nobody]
          have again : State.SameTables _ (state.openAuthorizations resource) :=
            opened.toSameTables.insertAuthorizations resource (state.authorizationsOf resource)
          exact .refused _ { opened with toSameTables := again.trans opened.toSameTables }
        · exact .answered _
            { opened with
              toSameTables := opened.toSameTables.insertAuthorizations resource _ } draws

theorem comes_masterKeys (state : State) (draws : Draws) (request : Request) (awsKms : Bool) :
    Comes state draws (state.answerMasterKeys draws request awsKms)
      (state.workMasterKeys draws request awsKms) := by
  simp only [answerMasterKeys, workMasterKeys]
  generalize request.assignedOrgId.getD "" = organization
  have opened := state.openMasterKeys_mirrors organization awsKms
  have changed (keys : List MasterKey) := { opened with
    toSameTables := opened.toSameTables.insertMasterKeys organization awsKms keys }
  rw [opened.masterKeys]
  cases request.method with
  | retrieve => exact .answered _ opened draws
  | create => exact .answered _ (changed _) _
  | delete => exact .answered _ (changed _) _
  | update =>
      simp only
      split
      · exact .answered _ (changed _) _
      · exact .refused _ opened

theorem comes_bind (state : State) (draws : Draws) (request : Request) :
    Comes state draws
      ((state.answerBind request).map fun (reply, next) => (reply, next, draws))
      ((state.workBind request).1, (state.workBind request).2, draws) := by
  simp only [answerBind, workBind, Table.modify]
  cases request.resourceUri with
  | none => exact .refused _ (.refl state)
  | some resource =>
      simp only
      cases found : state.keys.find? request.uri with
      | none => exact .refused _ (.refl state)
      | some key => exact .answered _ (.refl _) draws

/-- Whichever way a broker works on a request, it comes to the same. -/
theorem comes_work (state : State) (draws : Draws) (request : Request) :
    Comes state draws (state.answer draws request) (state.work draws request) := by
  unfold answer work
  split
  · exact .answered _ (.refl _) _
  split
  · exact .answered _ (.refl _) _
  split
  · exact state.comes_authorizations draws request
  split
  · exact state.comes_masterKeys draws request false
  split
  · exact state.comes_masterKeys draws request true
  split
  · exact .answered _ (.refl _) _
  cases request.method with
  | retrieve =>
      simp only
      cases state.answerRetrieve request.uri with
      | error refusal => exact .refused _ (.refl state)
      | ok reply => exact .answered _ (.refl state) draws
  | update => exact state.comes_bind draws request
  | create => exact .refused _ (.refl state)
  | delete => exact .refused _ (.refl state)

/-- The same answer under the same id. -/
theorem workNumbered_answerNumbered (state : State) (draws : Draws) (request : Request) :
    (state.workNumbered draws request).1 = (state.answerNumbered draws request).1 ∧
      (state.workNumbered draws request).2.1.Mirrors (state.answerNumbered draws request).2.1 ∧
      (state.workNumbered draws request).2.2 = (state.answerNumbered draws request).2.2 := by
  have comes := comes_work { state with answered := state.answered + 1 } draws request
  unfold workNumbered answerNumbered
  simp only at comes ⊢
  generalize State.work _ _ _ = worked at comes ⊢
  generalize State.answer _ _ _ = answer at comes ⊢
  cases comes with
  | refused refusal mirrors => exact ⟨rfl, mirrors, rfl⟩
  | answered reply mirrors rest => exact ⟨rfl, mirrors, rfl⟩

/-- However a broker deals with a call, it has the same outcome and the same effect. -/
theorem process_receive (state : State) (draws : Draws) (call : Call) :
    (state.process draws call).1 = (state.receive draws call).1 ∧
      (state.process draws call).2.1.Mirrors (state.receive draws call).2.1 ∧
      (state.process draws call).2.2 = (state.receive draws call).2.2 := by
  unfold process receive
  cases state.script with
  | cons outcome script => exact ⟨rfl, .refl _, rfl⟩
  | nil => exact workNumbered_answerNumbered _ draws call.request

end State

/-- Nobody can tell how a broker deals with calls. -/
theorem interchangeable_process : Interchangeable State.process State.receive := by
  intro one other same script draws call
  obtain ⟨outcome, mirrors, rest⟩ := one.process_receive draws call
  have alike : Alike (one.process draws call) (one.receive draws call) :=
    ⟨congrArg unnumbered outcome, mirrors.toSameTables, mirrors.script, rest⟩
  exact alike.trans (same.receive script draws call)

namespace State

/-- The broker with a call in its log that took its outcome from the script or else was counted. -/
def passed (state : State) (call : Call) : State :=
  { state with
    calls := state.calls ++ [call]
    script := state.script.tail
    answered := state.answered + if state.script.isEmpty then 1 else 0 }

/-- What a call that fails or is answered by the script does. -/
theorem receive_passed {state : State} {draws : Draws} {call : Call}
    (failed : (∃ error, (state.receive draws call).1 = .error error) ∨ state.script ≠ []) :
    (state.receive draws call).2 = (state.passed call, draws) := by
  cases scripted : state.script with
  | cons outcome script =>
      rw [receive_scripted scripted]
      simp [passed, served, scripted]
  | nil =>
      have noted : state.noted call = state.passed call := by
        simp [noted, passed, scripted]
      obtain ⟨error, refused⟩ := failed.resolve_right fun some => some scripted
      have received := received scripted draws call
      generalize state.receive draws call = came at received refused ⊢
      cases received with
      | answered => cases refused
      | refused => rw [noted]

end State

/-- Of a call nothing is left but that it was logged and counted, or took its outcome from the
script. What is found in the tables is the same, and whatever happens later goes as if the call had
not been there, but for the ids of requests. -/
structure Unnoticed (desk : Desk) (state : State) (draws : Draws) (call : Call) : Prop where
  tables : (desk state draws call).2.1.SameTables state
  calls : (desk state draws call).2.1.calls = state.calls ++ [call]
  script : (desk state draws call).2.1.script = state.script.tail
  answered : (desk state draws call).2.1.answered =
    state.answered + if state.script.isEmpty then 1 else 0
  drawn : (desk state draws call).2.2 = draws
  later : ∀ events rest,
    let after := course desk events (desk state draws call).2.1 rest
    let without := course desk events { state with script := state.script.tail } rest
    after.1.map unnumbered = without.1.map unnumbered ∧ after.2.1.SameTables without.2.1

theorem unnoticed_of_mirrors {desk : Desk} (interchangeable : Interchangeable desk desk)
    {state : State} {draws : Draws} {call : Call}
    (mirrors : (desk state draws call).2.1.Mirrors (state.passed call))
    (drawn : (desk state draws call).2.2 = draws) : Unnoticed desk state draws call where
  tables := { mirrors.toSameTables with }
  calls := mirrors.calls
  script := mirrors.script
  answered := mirrors.answered
  drawn := drawn
  later events rest :=
    have same : State.SameTables _ { state with script := state.script.tail } :=
      { mirrors.toSameTables with }
    interchangeable.course events same mirrors.script rest

/-- A call that fails, or is answered by the script, changes nothing: neither when a broker looks
first, nor when it works on its tables as it goes and stops where it fails. -/
theorem failed_call_unnoticed {state : State} {draws : Draws} {call : Call}
    (failed : (∃ error, (state.receive draws call).1 = .error error) ∨ state.script ≠ []) :
    Unnoticed State.receive state draws call ∧ Unnoticed State.process state draws call ∧
      (state.process draws call).1 = (state.receive draws call).1 := by
  have passed := State.receive_passed failed
  obtain ⟨outcome, mirrors, rest⟩ := state.process_receive draws call
  rw [passed] at mirrors rest
  refine ⟨?_, ?_, outcome⟩
  · refine unnoticed_of_mirrors interchangeable_receive ?_ (congrArg Prod.snd passed)
    rw [passed]
    exact .refl _
  · exact unnoticed_of_mirrors (interchangeable_process.trans interchangeable_process.symm)
      mirrors rest

/-- A user who is not on the list of a resource is taken off it. -/
theorem failed_call_unnoticed_revoke :
    let state : State := {
      host := "kms"
      resources := ⟨[("kms://kms/resources/r", { uri := "kms://kms/resources/r" })]⟩
      authorizations := ⟨[("kms://kms/resources/r", [State.entry "kms://kms/resources/r" "ann"])]⟩ }
    let draws : Draws := { source := fun _ _ => 0 }
    let call (user : String) : Call := {
      request := {
        method := .delete, uri := Endpoint.authorizations
        resourceUri := some "kms://kms/resources/r", authId := some user }
      options := none }
    (∃ error, (state.receive draws (call "bob")).1 = .error error) ∧
      (state.process draws (call "bob")).2.1.authorizationsOf "kms://kms/resources/r" =
        state.authorizationsOf "kms://kms/resources/r" ∧
      (state.process draws (call "ann")).2.1.authorizationsOf "kms://kms/resources/r" = [] := by
  intro state draws call
  have failed : ∃ error, (state.receive draws (call "bob")).1 = .error error := ⟨_, by rfl⟩
  have unnoticed := (failed_call_unnoticed (.inl failed)).2.1
  exact ⟨failed, unnoticed.tables.authorizations "kms://kms/resources/r", by rfl⟩

end FieldCrypt.Broker
