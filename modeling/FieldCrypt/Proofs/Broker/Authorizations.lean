import FieldCrypt.Proofs.Broker.History

/-!
# Authorizations follow the history

The authorizations on a resource are those that come of going through the history once more: whoever
was authorized when the resource was created or later is added at the end, and whoever was taken off
is taken off everywhere. Nothing else matters, and what failed matters least of all.
-/

namespace FieldCrypt

open Broker Client

namespace Deed

/-- The users that are authorized on a resource after a deed, when these were before it. -/
def usersAfter (resource : String) (users : List String) : Deed → List String
  | ⟨.createResource _ added, .ok created⟩ =>
    if Resource.uri created = resource then users ++ added else users
  | ⟨.authorize about added, .ok _⟩ => if about = resource then users ++ added else users
  | ⟨.revoke about user, .ok _⟩ => if about = resource then users.filter (· ≠ user) else users
  | _ => users

/-- The URI of the resource that a deed created. -/
def created? : Deed → Option String
  | ⟨.createResource .., .ok created⟩ => some (Resource.uri created)
  | _ => none

/-- The deed authorized the user on the resource. -/
def Adds (resource user : String) : Deed → Prop
  | ⟨.createResource _ added, .ok created⟩ => Resource.uri created = resource ∧ user ∈ added
  | ⟨.authorize about added, .ok _⟩ => about = resource ∧ user ∈ added
  | _ => False

end Deed

/-- The users on a resource when the deeds are gone through, beginning with nobody. -/
def replayed (resource : String) (deeds : List Deed) : List String :=
  deeds.foldl (Deed.usersAfter resource) []

theorem replayed_append (resource : String) (deeds : List Deed) (deed : Deed) :
    replayed resource (deeds ++ [deed]) = deed.usersAfter resource (replayed resource deeds) := by
  rw [replayed, List.foldl_append]
  rfl

namespace Broker

/-- The users that are authorized on a resource after a call was answered in this way, when these
were before it. -/
def usersAfterReply (resource : String) (users : List String) (request : Request) (reply : Reply) :
    List String :=
  match request.method with
  | .create =>
    if request.uri = Endpoint.resources then
      if reply.resource.map Resource.uri = some resource then users ++ request.userIds else users
    else if request.uri = Endpoint.authorizations ∧ request.resourceUri.getD "" = resource then
      users ++ request.userIds
    else users
  | .delete =>
    if request.uri = Endpoint.authorizations ∧ request.resourceUri.getD "" = resource then
      users.filter (· ≠ request.authId.getD "")
    else users
  | .retrieve | .update => users

/-- Nobody is authorized by what is asked of other endpoints. -/
theorem usersAfterReply_of_ne {resource : String} {users : List String} {request : Request}
    {reply : Reply} (resources : request.uri ≠ Endpoint.resources)
    (authorizations : request.uri ≠ Endpoint.authorizations) :
    usersAfterReply resource users request reply = users := by
  unfold usersAfterReply
  simp only [resources, authorizations, false_and, if_false]
  split <;> rfl

theorem usersAfterReply_masterKeys {resource : String} {users : List String} {request : Request}
    {reply : Reply} {awsKms : Bool} (uri : request.uri = Endpoint.masterKeys awsKms) :
    usersAfterReply resource users request reply = users := by
  apply usersAfterReply_of_ne <;> rw [uri] <;> cases awsKms <;> decide

namespace State

variable {state next : State} {draws draws' : Draws} {request : Request} {reply : Reply}
  {resource : String} {users : List String}

theorem filter_map_entry (resource user : String) (users : List String) :
    (users.map (entry resource)).filter (fun authorization => authorization.authId ≠ user) =
      (users.filter (· ≠ user)).map (entry resource) :=
  List.filter_map

/-- A call that is answered changes the authorizations on a resource as the users on it. -/
theorem Answered.authorizationsOf_eq
    (answered : Answered state draws request reply next draws')
    (listed : state.authorizationsOf resource = users.map (entry resource)) :
    next.authorizationsOf resource =
      (usersAfterReply resource users request reply).map (entry resource) := by
  cases answered with
  | createKeys uri method =>
      obtain ⟨keys, made⟩ := state.exists_keys_createKeys draws request
      rw [made]
      simp only [usersAfterReply, method, uri]
      exact listed
  | createResource uri method =>
      obtain ⟨created, resources, replied, changed, -, -⟩ := state.createResource_eq draws request
      rw [changed, replied, authorizationsOf_of_insert rfl]
      simp only [usersAfterReply, method, uri, if_true, Option.map_some, Option.some.injEq]
      split
      · rename_i same
        subst same
        rw [listed, List.map_append]
      · exact listed
  | @authorize about uri method given known =>
      obtain ⟨resources, changed, -⟩ := state.authorize_eq about request.userIds
      rw [changed, authorizationsOf_of_insert rfl]
      have apart : Endpoint.authorizations ≠ Endpoint.resources := by decide
      simp only [usersAfterReply, method, uri, given, if_neg apart, true_and]
      split
      · rename_i same
        subst same
        rw [listed, List.map_append]
      · exact listed
  | @revoke about uri method given known there =>
      rw [authorizationsOf_of_insert rfl]
      simp only [usersAfterReply, method, uri, given, true_and]
      split
      · rename_i same
        subst same
        rw [listed, filter_map_entry]
      · exact listed
  | authorizations uri method | masterKeys uri method | ping uri method | retrieve method
  | bind method =>
      simp only [usersAfterReply, method]
      exact listed
  | changeMasterKeys uri relabelled =>
      rw [usersAfterReply_masterKeys uri]
      exact listed

/-- Resources stay known. -/
theorem Answered.known (answered : Answered state draws request reply next draws')
    (known : state.resources.contains resource = true) :
    next.resources.contains resource = true := by
  cases answered with
  | createKeys =>
      obtain ⟨keys, made⟩ := state.exists_keys_createKeys draws request
      rw [made]
      exact known
  | createResource =>
      obtain ⟨created, resources, -, changed, -, contains⟩ := state.createResource_eq draws request
      rw [changed, contains, known, Bool.or_true]
  | @authorize about =>
      obtain ⟨resources, changed, contains⟩ := state.authorize_eq about request.userIds
      rw [changed]
      exact (contains resource).trans known
  | bind =>
      rw [Table.contains, Table.find?_modify]
      split
      · rename_i same
        rw [Option.isSome_map, same]
        exact known
      · exact known
  | _ => exact known

/-- A resource that a reply holds is known from then on, and it has a URI that is not empty. -/
theorem Answered.created (answered : Answered state draws request reply next draws')
    {created : Resource} (replied : reply.resource = some created) :
    next.resources.contains created.uri = true ∧ created.uri ≠ "" := by
  cases answered with
  | createResource =>
      obtain ⟨resource, resources, made, changed, uri, contains⟩ :=
        state.createResource_eq draws request
      rw [made] at replied
      obtain rfl := Option.some.inj replied
      constructor
      · rw [changed, contains]
        exact (Bool.or_eq_true _ _).mpr (.inl (decide_eq_true rfl))
      · simp [uri]
  | retrieve method found =>
      rcases answerRetrieve_cases found with ⟨target, rfl⟩ | ⟨key, rfl⟩ <;> cases replied
  | _ => cases replied

end State

end Broker

namespace Deed

variable (resource : String) (users : List String) {action : Action}

/-- What failed changes nothing. -/
theorem usersAfter_error (action : Action) (error : ClientError) :
    usersAfter resource users ⟨action, .error error⟩ = users := by
  cases action <;> rfl

/-- An action changes the users as its call does. -/
theorem usersAfter_read (single : ¬ action.Resolves) {request : Request}
    (needs : action.request = .ok request) (reply : Reply) :
    usersAfter resource users ⟨action, action.read reply⟩ =
      usersAfterReply resource users request reply := by
  cases action with
  | resolveKey uri options => exact (single trivial).elim
  | createKeys count =>
      obtain rfl := Except.ok.inj needs
      have nobody : usersAfterReply resource users (.createKeys count) reply = users :=
        usersAfterReply_of_ne (show Endpoint.keys ≠ Endpoint.resources by decide)
          (show Endpoint.keys ≠ Endpoint.authorizations by decide)
      rw [nobody]
      rfl
  | bindKey about uri =>
      obtain rfl := Except.ok.inj (Action.given_of_ok (Action.given_of_ok needs))
      rfl
  | createResource keyUris userIds =>
      obtain rfl := Except.ok.inj needs
      simp only [Action.read, usersAfterReply, if_true]
      cases reply.resource with
      | none => rfl
      | some created => simp only [usersAfter, Option.map_some, Option.some.injEq]
  | authorize about added =>
      have apart : Endpoint.authorizations ≠ Endpoint.resources := by decide
      obtain rfl := Except.ok.inj (Action.given_of_ok needs)
      simp only [Action.read, usersAfter, usersAfterReply, if_neg apart, Option.getD_some, true_and]
  | authorizations about =>
      obtain rfl := Except.ok.inj (Action.given_of_ok needs)
      rfl
  | revoke about user =>
      obtain rfl := Except.ok.inj (Action.given_of_ok (Action.given_of_ok needs))
      simp only [Action.read, usersAfter, usersAfterReply, Option.getD_some, true_and]
  | masterKeys scope | registerMasterKey upload | deleteMasterKeys scope =>
      obtain rfl := Except.ok.inj needs
      exact (usersAfterReply_masterKeys rfl).symm
  | activateMasterKey scope keyId =>
      obtain rfl := Except.ok.inj (Action.given_of_ok needs)
      exact (usersAfterReply_masterKeys rfl).symm
  | ping =>
      obtain rfl := Except.ok.inj needs
      rfl

variable {resource users}

/-- The resource that a deed created is in the reply. -/
theorem created?_read {reply : Reply}
    (creates : (⟨action, action.read reply⟩ : Deed).created? = some resource) :
    ∃ created, reply.resource = some created ∧ created.uri = resource := by
  cases action with
  | createResource keyUris userIds =>
      simp only [Action.read] at creates
      cases replied : reply.resource with
      | none =>
          rw [replied] at creates
          cases creates
      | some created =>
          rw [replied] at creates
          exact ⟨created, rfl, Option.some.inj creates⟩
  | _ => cases creates

theorem created?_error (action : Action) (error : ClientError) :
    (⟨action, .error error⟩ : Deed).created? = none := by
  cases action <;> rfl

/-- Who is authorized after a deed was so before it or is added by it. -/
theorem mem_usersAfter {deed : Deed} {user : String}
    (listed : user ∈ deed.usersAfter resource users) :
    user ∈ users ∨ deed.Adds resource user := by
  unfold usersAfter at listed
  split at listed
  · split at listed
    · rename_i same
      exact (List.mem_append.mp listed).imp_right fun added => ⟨same, added⟩
    · exact .inl listed
  · split at listed
    · rename_i same
      exact (List.mem_append.mp listed).imp_right fun added => ⟨same, added⟩
    · exact .inl listed
  · split at listed
    · exact .inl (List.mem_filter.mp listed).1
    · exact .inl listed
  · exact .inl listed

/-- A resource was created by some deed before the last one, or by that one. -/
theorem created_of_append {deeds : List Deed} {last : Deed}
    (created : ∃ deed ∈ deeds ++ [last], deed.created? = some resource) :
    (∃ deed ∈ deeds, deed.created? = some resource) ∨ last.created? = some resource := by
  obtain ⟨deed, there, creates⟩ := created
  rcases List.mem_append.mp there with before | same
  · exact .inl ⟨deed, before, creates⟩
  · exact .inr (List.mem_singleton.mp same ▸ creates)

/-- Who is not among the users is not among them later, while nobody authorizes them. -/
theorem not_mem_foldl_usersAfter {deeds : List Deed} {user : String}
    (absent : ∀ deed ∈ deeds, ¬ deed.Adds resource user) (off : user ∉ users) :
    user ∉ deeds.foldl (usersAfter resource) users := by
  induction deeds generalizing users with
  | nil => exact off
  | cons deed deeds ih =>
      apply ih (fun other later => absent other (List.mem_cons_of_mem _ later))
      intro listed
      rcases mem_usersAfter listed with before | added
      · exact off before
      · exact absent deed List.mem_cons_self added

end Deed

/-- Who is taken off a resource stays off until somebody authorizes them again. -/
theorem not_mem_replayed {resource user : String} {before after : List Deed}
    (absent : ∀ deed ∈ after, ¬ deed.Adds resource user) :
    user ∉ replayed resource (before ++ ⟨.revoke resource user, .ok ()⟩ :: after) := by
  rw [replayed, List.foldl_append, List.foldl_cons]
  apply Deed.not_mem_foldl_usersAfter absent
  simp [Deed.usersAfter]

/-- What the broker keeps about resources is what comes of going through the deeds: it lists those
users, and it knows all that were created. -/
structure Replays (deeds : List Deed) (state : State) : Prop where
  listed : ∀ resource,
    state.authorizationsOf resource = (replayed resource deeds).map (State.entry resource)
  known : ∀ resource, (∃ deed ∈ deeds, deed.created? = some resource) →
    state.resources.contains resource = true ∧ resource ≠ ""

namespace Replays

variable {deeds : List Deed} {state next : State} {action : Action}

theorem congr (replays : Replays deeds state)
    (authorizations : next.authorizations = state.authorizations)
    (resources : next.resources = state.resources) : Replays deeds next where
  listed resource := by
    rw [State.authorizationsOf, authorizations]
    exact replays.listed resource
  known resource created := by
    rw [resources]
    exact replays.known resource created

theorem of_tables (replays : Replays deeds state) (same : next.tables = state.tables) :
    Replays deeds next := by
  have authorizations := congrArg State.authorizations same
  have resources := congrArg State.resources same
  exact replays.congr authorizations resources

/-- A deed that changes no users and creates nothing. -/
theorem idle (replays : Replays deeds state) {deed : Deed}
    (changes : ∀ resource users, deed.usersAfter resource users = users)
    (creates : deed.created? = none) : Replays (deeds ++ [deed]) state where
  listed resource := by
    rw [replayed_append, changes]
    exact replays.listed resource
  known resource created := by
    rcases Deed.created_of_append created with before | never
    · exact replays.known resource before
    · cases creates.symm.trans never

theorem failed (replays : Replays deeds state) (error : ClientError) :
    Replays (deeds ++ [⟨action, .error error⟩]) state :=
  replays.idle (fun resource users => Deed.usersAfter_error resource users action error)
    (Deed.created?_error action error)

theorem answered {draws draws' : Draws} {request : Request} {reply : Reply}
    (replays : Replays deeds state) (single : ¬ action.Resolves)
    (needs : action.request = .ok request)
    (answered : State.Answered state draws request reply next draws') (requestId : String) :
    Replays (deeds ++ [⟨action, action.read { reply with requestId := some requestId }⟩]) next where
  listed resource := by
    rw [replayed_append, Deed.usersAfter_read _ _ single needs]
    exact answered.authorizationsOf_eq (replays.listed resource)
  known resource created := by
    rcases Deed.created_of_append created with before | creates
    · obtain ⟨known, nonempty⟩ := replays.known resource before
      exact ⟨answered.known known, nonempty⟩
    · obtain ⟨created, replied, rfl⟩ := Deed.created?_read creates
      exact answered.created replied

/-- An action that is a single call, whatever the broker makes of it. -/
theorem asked {request : Request} (replays : Replays deeds state) (unscripted : state.script = [])
    (single : ¬ action.Resolves) (needs : action.request = .ok request) (draws : Draws) :
    Replays (deeds ++ [⟨action, action.conclude (state.receive draws ⟨request, none⟩).1⟩])
      (state.receive draws ⟨request, none⟩).2.1 := by
  have received := State.received unscripted draws ⟨request, none⟩
  generalize state.receive draws ⟨request, none⟩ = came at received ⊢
  cases received with
  | refused => exact (replays.failed _).of_tables (state.tables_noted _)
  | @answered reply next draws' answered =>
      -- The number that the reply is sent under is no part of what it says about resources.
      have noted : Replays deeds (state.noted ⟨request, none⟩) :=
        replays.of_tables (state.tables_noted _)
      let numbered : Reply := { reply with requestId := some state.nextRequestId }
      have succeeds : numbered.isFailure = false := answered.not_failure
      change Replays (deeds ++ [⟨action, action.conclude (.ok numbered)⟩]) next
      rw [action.conclude_ok succeeds]
      exact noted.answered single needs answered _

end Replays

theorem History.replays {host : String} {deeds : List Deed} {shared : Shared Simulation}
    (history : History host deeds shared) : Replays deeds shared.outside.broker := by
  induction history with
  | start new =>
      rw [new]
      constructor
      · intro resource
        rfl
      · rintro resource ⟨deed, there, -⟩
        cases there
  | @act deeds shared last before client action outcome ran replays =>
      cases Performed.of_run before.unscripted ran with
      | lacks => exact replays.failed _
      | asks single needs => exact replays.asked before.unscripted single needs _
      | resolves resolves same =>
          cases action with
          | resolveKey uri options =>
              exact (replays.idle (fun _ _ => rfl) rfl).of_tables same
          | _ => exact resolves.elim
  | keep before uri jwk replays => exact replays.congr rfl rfl
  | move before source target replays => exact replays.congr rfl rfl
  | other before same replays => exact replays.of_tables same

namespace Broker.State

variable {state : State} {request : Request} {resource : String}

theorem answer_authorizations (draws : Draws) (uri : request.uri = Endpoint.authorizations) :
    state.answer draws request =
      (state.answerAuthorizations request).map fun (reply, next) => (reply, next, draws) := by
  have keys : Endpoint.authorizations ≠ Endpoint.keys := by decide
  have resources : Endpoint.authorizations ≠ Endpoint.resources := by decide
  simp only [answer, uri, keys, resources, false_and, if_false, if_true]

/-- Nobody is taken off a list that does not have them on it. -/
theorem length_filter_ne_eq_iff {user : String} {users : List String} :
    (users.filter (· ≠ user)).length = users.length ↔ user ∉ users := by
  rw [List.length_filter_eq_length_iff]
  simp only [ne_eq, decide_eq_true_eq]
  constructor
  · intro others listed
    exact others user listed rfl
  · rintro absent other listed rfl
    exact absent listed

theorem answerAuthorizations_delete {users : List String} (method : request.method = .delete)
    (about : request.resourceUri.getD "" = resource)
    (known : state.resources.contains resource = true)
    (listed : state.authorizationsOf resource = users.map (entry resource)) :
    state.answerAuthorizations request =
      if request.authId.getD "" ∈ users then
        .ok ({ status := 200 }, { state with
          authorizations := state.authorizations.insert resource
            ((users.filter (· ≠ request.authId.getD "")).map (entry resource)) })
      else .error .authorizationNotFound := by
  rw [answerAuthorizations]
  simp only [about, known, method, listed, filter_map_entry, List.length_map,
    length_filter_ne_eq_iff, Bool.not_true, Bool.false_eq_true, if_false, ite_not]

end Broker.State

section Asked

variable {host : String} {deeds : List Deed} {shared : Shared Simulation} {resource : String}
  (history : History host deeds shared) (created : ∃ deed ∈ deeds, deed.created? = some resource)
  (client : Client)

include history created

/-- The users of the history are listed. -/
theorem run_authorizations :
    ∃ last, Routine.run Simulation.environment.handle
        ((Action.authorizations resource).perform client) shared =
      some (.ok ((replayed resource deeds).map (State.entry resource)), last) ∧
      last.outside.broker.tables = shared.outside.broker.tables := by
  obtain ⟨known, nonempty⟩ := history.replays.known resource created
  let request : Request :=
    { method := .retrieve, uri := Endpoint.authorizations, resourceUri := some resource }
  have needs : (Action.authorizations resource).request = .ok request :=
    if_neg (mt String.isEmpty_iff.mp nonempty)
  have answers :
      (shared.outside.broker.noted ⟨request, none⟩).answer shared.outside.draws request =
        .ok ({ status := 200, authorizations := shared.outside.broker.authorizationsOf resource },
          shared.outside.broker.noted ⟨request, none⟩, shared.outside.draws) := by
    rw [State.answer_authorizations _ rfl, State.answerAuthorizations]
    simp only [request, State.noted, Option.getD_some, known]
    rfl
  obtain ⟨last, ran, same⟩ := run_of_answer_ok history.unscripted client id needs answers
  refine ⟨last, ?_, ?_⟩
  · rw [ran, ← history.replays.listed]
    rfl
  · rw [same, State.tables_noted]

/-- Anybody can be authorized, also when they are already. -/
theorem run_authorize (added : List String) :
    ∃ last, Routine.run Simulation.environment.handle
        ((Action.authorize resource added).perform client) shared =
      some (.ok (added.map (State.entry resource)), last) := by
  obtain ⟨known, nonempty⟩ := history.replays.known resource created
  let request : Request :=
    { method := .create, uri := Endpoint.authorizations, resourceUri := some resource,
      userIds := added }
  have needs : (Action.authorize resource added).request = .ok request :=
    if_neg (mt String.isEmpty_iff.mp nonempty)
  let noted := shared.outside.broker.noted ⟨request, none⟩
  have answers : noted.answer shared.outside.draws request =
      .ok ({ status := 201, authorizations := added.map (State.entry resource) },
        (noted.authorize resource added).2, shared.outside.draws) := by
    rw [State.answer_authorizations _ rfl, State.answerAuthorizations]
    simp only [noted, request, State.noted, Option.getD_some, known]
    rfl
  obtain ⟨last, ran, -⟩ := run_of_answer_ok history.unscripted client id needs answers
  exact ⟨last, ran⟩

/-- One of the users can be taken off, and nobody else. -/
theorem run_revoke {user : String} (named : user ≠ "") :
    let ran :=
      Routine.run Simulation.environment.handle ((Action.revoke resource user).perform client) shared
    (user ∈ replayed resource deeds → ∃ last, ran = some (.ok (), last)) ∧
    (user ∉ replayed resource deeds → ∃ failure last,
      ran = some (.error (.broker failure), last) ∧
      failure.status = 404 ∧ last.outside.broker.tables = shared.outside.broker.tables) := by
  obtain ⟨known, nonempty⟩ := history.replays.known resource created
  let request : Request :=
    { method := .delete, uri := Endpoint.authorizations, resourceUri := some resource,
      authId := some user }
  have needs : (Action.revoke resource user).request = .ok request :=
    (if_neg (mt String.isEmpty_iff.mp named)).trans (if_neg (mt String.isEmpty_iff.mp nonempty))
  let noted := shared.outside.broker.noted ⟨request, none⟩
  have uri : request.uri = Endpoint.authorizations := rfl
  have answers := (noted.answer_authorizations shared.outside.draws uri).trans
    (congrArg _ (State.answerAuthorizations_delete rfl rfl known (history.replays.listed resource)))
  constructor
  · intro listed
    rw [if_pos (show request.authId.getD "" ∈ _ from listed)] at answers
    obtain ⟨last, ran, -⟩ := run_of_answer_ok history.unscripted client id needs answers
    exact ⟨last, ran⟩
  · intro absent
    rw [if_neg (show request.authId.getD "" ∉ _ from absent)] at answers
    obtain ⟨last, ran, same⟩ := run_of_answer_error history.unscripted client id needs answers
    exact ⟨_, last, ran, rfl, same⟩

end Asked

section Authorizations

variable {host : String} {deeds : List Deed} {shared : Shared Simulation} {resource : String}

/-- After any history, whatever is asked about a resource that was created in it is answered from
the users that come of going through the history: they are listed, each in an entry of that
resource, others can be authorized, and one of them can be taken off. To take off anybody else is
refused with status 404, and then no table changes. Somebody who was taken off and not authorized
again is not among them. -/
theorem authorizations_replayed (history : History host deeds shared)
    (created : ∃ deed ∈ deeds, deed.created? = some resource) (client : Client) :
    let users := replayed resource deeds
    let asked (action : Action) :=
      Routine.run Simulation.environment.handle (action.perform client) shared
    (∃ last, asked (.authorizations resource) =
        some (.ok (users.map (State.entry resource)), last) ∧
      last.outside.broker.tables = shared.outside.broker.tables) ∧
    (∀ added, ∃ last, asked (.authorize resource added) =
      some (.ok (added.map (State.entry resource)), last)) ∧
    (∀ user ∈ users, user ≠ "" → ∃ last, asked (.revoke resource user) = some (.ok (), last)) ∧
    (∀ user ∉ users, user ≠ "" → ∃ failure last,
      asked (.revoke resource user) = some (.error (.broker failure), last) ∧
      failure.status = 404 ∧ last.outside.broker.tables = shared.outside.broker.tables) ∧
    (∀ user before after, deeds = before ++ ⟨.revoke resource user, .ok ()⟩ :: after →
      (∀ deed ∈ after, ¬ deed.Adds resource user) → user ∉ users) := by
  refine ⟨run_authorizations history created client, run_authorize history created client,
    fun user listed named => (run_revoke history created client named).1 listed,
    fun user absent named => (run_revoke history created client named).2 absent, ?_⟩
  rintro user before after rfl absent
  exact not_mem_replayed absent

/-- Somebody who was authorized twice is taken off, and cannot be taken off once more. -/
theorem authorizations_replayed_twice :
    let resource := "kms://kms/resources/00000000000000000000000000000000"
    ∃ deeds shared, History "kms" deeds shared ∧
      deeds.map Deed.action = [
        .createResource [] ["ann", "bob", "ann"], .authorize resource ["cy"],
        .revoke resource "ann"] ∧
      (∃ deed ∈ deeds, deed.created? = some resource) ∧
      let asked (action : Action) :=
        Routine.run Simulation.environment.handle (action.perform {}) shared
      (∃ last, asked (.authorizations resource) =
        some (.ok [State.entry resource "bob", State.entry resource "cy"], last)) ∧
      (∃ last, asked (.revoke resource "bob") = some (.ok (), last)) ∧
      ∃ failure last, asked (.revoke resource "ann") = some (.error (.broker failure), last) ∧
        failure.status = 404 := by
  intro resource
  let start : Shared Simulation :=
    { outside := { broker := { host := "kms" }, draws := { source := fun _ _ => 0 } } }
  have new : History "kms" [] start := .start rfl
  have first := new.ask (.createResource [] ["ann", "bob", "ann"]) id rfl
  have second := first.ask (.authorize resource ["cy"]) id rfl
  have third := second.ask (.revoke resource "ann") id rfl
  refine ⟨_, _, third, rfl, ?_⟩
  generalize same : _ ++ [_] = deeds at third ⊢
  have created : ∃ deed ∈ deeds, deed.created? = some resource := by
    rw [← same]
    decide +kernel
  have users : replayed resource deeds = ["bob", "cy"] := by
    rw [← same]
    decide +kernel
  obtain ⟨⟨last, listed, -⟩, -, revoked, refused, -⟩ := authorizations_replayed third created {}
  rw [users] at listed revoked refused
  obtain ⟨failure, final, ran, status, -⟩ := refused "ann" (by decide) (by decide)
  have other := revoked "bob" (by decide) (by decide)
  exact ⟨created, ⟨last, listed⟩, other, failure, final, ran, status⟩

end Authorizations

end FieldCrypt
