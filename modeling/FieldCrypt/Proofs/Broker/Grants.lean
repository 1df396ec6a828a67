import FieldCrypt.Proofs.Broker.Events

/-!
# Authorizations and their URIs

A resource lists the URIs of the authorizations on it. The list grows with the authorizations, but it
does not get shorter when some are revoked. So the URIs of the authorizations on a resource are among
those that it lists, and they are all of these exactly as long as none was revoked.
-/

namespace FieldCrypt.Broker

/-- The request is to take the authorizations of a user off a resource. -/
def Request.Revokes (request : Request) (uri : String) : Prop :=
  request.uri = Endpoint.authorizations ∧ request.method = .delete ∧
    request.resourceUri.getD "" = uri

instance (request : Request) (uri : String) : Decidable (request.Revokes uri) :=
  inferInstanceAs (Decidable (_ ∧ _ ∧ _))

namespace Moment

/-- Authorizations are taken off a resource. -/
def Revokes (uri : String) (moment : Moment) : Prop :=
  ∃ answer ∈ moment.answer?, answer.1.Revokes uri

instance (uri : String) (moment : Moment) : Decidable (moment.Revokes uri) :=
  inferInstanceAs (Decidable (∃ answer ∈ moment.answer?, answer.1.Revokes uri))

/-- A resource is created under a URI. -/
def Creates (uri : String) (moment : Moment) : Prop :=
  ∃ answer ∈ moment.answer?, answer.2.resource.map Resource.uri = some uri

instance (uri : String) (moment : Moment) : Decidable (moment.Creates uri) :=
  inferInstanceAs (Decidable (∃ answer ∈ moment.answer?, _ = _))

end Moment

namespace State

variable {state next : State} {draws draws' : Draws} {request : Request} {reply : Reply}
  {uri : String} {revoked : Prop}

/-- The URIs of authorizations that a resource lists, if there is such a resource. -/
def listedUris? (state : State) (uri : String) : Option (List String) :=
  (state.resources.find? uri).map Resource.authorizationUris

/-- The URIs of the authorizations on a resource. -/
def grantedUris (state : State) (uri : String) : List String :=
  (state.authorizationsOf uri).map Authorization.uri

theorem listedUris?_eq_none_iff :
    state.listedUris? uri = none ↔ state.resources.contains uri = false := by
  rw [listedUris?, Option.map_eq_none_iff, Table.contains, Option.isSome_eq_false_iff,
    Option.isNone_iff_eq_none]

/-- What an answer does to the authorizations on a resource and to the URIs that it lists: the
resource is created, authorizations are added (or none), or some are revoked. -/
inductive Grants (request : Request) (reply : Reply) (uri : String) (state next : State) : Prop where
  | create {added : List String} (kept : ¬ request.Revokes uri)
      (made : reply.resource.map Resource.uri = some uri)
      (listed : next.listedUris? uri = some added)
      (granted : next.grantedUris uri = state.grantedUris uri ++ added)
  | extend {added : List String} (kept : ¬ request.Revokes uri)
      (nothing : state.listedUris? uri = none → added = [])
      (listed : next.listedUris? uri = (state.listedUris? uri).map (· ++ added))
      (granted : next.grantedUris uri = state.grantedUris uri ++ added)
  | revoke (revokes : request.Revokes uri) (known : state.listedUris? uri ≠ none)
      (listed : next.listedUris? uri = state.listedUris? uri)
      (fewer : (next.grantedUris uri).Sublist (state.grantedUris uri))
      (less : (next.grantedUris uri).length < (state.grantedUris uri).length)

/-- An answer that is about something else. -/
theorem Grants.idle (kept : ¬ request.Revokes uri)
    (listed : next.listedUris? uri = state.listedUris? uri)
    (granted : next.grantedUris uri = state.grantedUris uri) :
    Grants request reply uri state next := by
  refine .extend kept (fun _ => rfl) ?_ (granted.trans (List.append_nil _).symm)
  rw [listed]
  cases state.listedUris? uri with
  | none => rfl
  | some uris => exact congrArg some (List.append_nil uris).symm

theorem grantedUris_of_insert {about : String} {held : List Authorization}
    (changed : next.authorizations = state.authorizations.insert about held) (uri : String) :
    next.grantedUris uri =
      if about = uri then held.map Authorization.uri else state.grantedUris uri := by
  rw [grantedUris, authorizationsOf_of_insert changed]
  split <;> rfl

theorem not_revokes_of_method (other : request.method ≠ .delete) : ¬ request.Revokes uri :=
  fun revokes => other revokes.2.1

theorem grants_createResource (method : request.method = .create) (draws : Draws) :
    Grants request (state.createResource draws request).1 uri state
      (state.createResource draws request).2.1 := by
  have kept : ¬ request.Revokes uri := not_revokes_of_method (by simp [method])
  let resource := state.newResource draws request
  have placed := state.find?_createResource draws request uri
  have granted : (state.createResource draws request).2.1.grantedUris uri =
      if resource.uri = uri then
        (state.authorizationsOf resource.uri ++
          request.userIds.map (entry resource.uri)).map Authorization.uri
      else state.grantedUris uri := grantedUris_of_insert rfl uri
  by_cases same : resource.uri = uri
  · rw [if_pos same] at placed granted
    refine .create kept ?_ (by rw [listedUris?, placed, Option.map_some]) ?_
    · rw [createResource_reply, Option.map_some]
      exact congrArg some same
    · rw [granted, List.map_append, ← same]
      rfl
  · rw [if_neg same] at placed granted
    exact .idle kept (congrArg (Option.map Resource.authorizationUris) placed) granted

theorem grants_authorize (method : request.method = .create) {about : String}
    (known : state.resources.contains about = true) (users : List String) :
    Grants request reply uri state (state.authorize about users).2 := by
  have kept : ¬ request.Revokes uri := not_revokes_of_method (by simp [method])
  let added := (users.map (entry about)).map Authorization.uri
  have placed : (state.authorize about users).2.resources.find? uri = _ :=
    state.resources.find?_modify about uri fun resource =>
      { resource with authorizationUris := resource.authorizationUris ++ added }
  have granted : (state.authorize about users).2.grantedUris uri =
      if about = uri then
        (state.authorizationsOf about ++ users.map (entry about)).map Authorization.uri
      else state.grantedUris uri := grantedUris_of_insert rfl uri
  by_cases same : about = uri
  · subst same
    rw [if_pos rfl] at placed granted
    refine .extend kept (fun missing => ?_) ?_ (granted.trans List.map_append)
    · cases known.symm.trans (listedUris?_eq_none_iff.mp missing)
    · rw [listedUris?, placed, listedUris?, Option.map_map, Option.map_map]
      rfl
  · rw [if_neg same] at placed granted
    exact .idle kept (congrArg (Option.map Resource.authorizationUris) placed) granted

theorem grants_revoke {about user : String} (endpoint : request.uri = Endpoint.authorizations)
    (method : request.method = .delete) (given : request.resourceUri.getD "" = about)
    (known : state.resources.contains about = true)
    (listed : ∃ authorization ∈ state.authorizationsOf about, authorization.authId = user)
    (resources : next.resources = state.resources)
    (changed : next.authorizations = state.authorizations.insert about
      ((state.authorizationsOf about).filter fun authorization => authorization.authId ≠ user)) :
    Grants request reply uri state next := by
  have same : next.listedUris? uri = state.listedUris? uri := by
    rw [listedUris?, listedUris?, resources]
  have granted := grantedUris_of_insert changed uri
  by_cases here : about = uri
  · subst here
    rw [if_pos rfl] at granted
    refine .revoke ⟨endpoint, method, given⟩ (fun missing => ?_) same ?_ ?_
    · cases known.symm.trans (listedUris?_eq_none_iff.mp missing)
    · rw [granted, grantedUris]
      exact List.filter_sublist.map Authorization.uri
    · obtain ⟨authorization, there, named⟩ := listed
      rw [granted, grantedUris, List.length_map, List.length_map]
      exact List.length_filter_lt_length_iff_exists.mpr
        ⟨authorization, there, by simpa using named⟩
  · rw [if_neg here] at granted
    exact .idle (fun revokes => here (given.symm.trans revokes.2.2)) same granted

theorem Answered.grants (answered : Answered state draws request reply next draws') (uri : String) :
    Grants request reply uri state next := by
  cases answered with
  | createKeys _ method =>
      obtain ⟨keys, made⟩ := state.exists_keys_createKeys draws request
      rw [made]
      exact .idle (not_revokes_of_method (by simp [method])) rfl rfl
  | createResource _ method => exact grants_createResource method draws
  | authorize _ method _ known => exact grants_authorize method known request.userIds
  | revoke endpoint method given known listed =>
      exact grants_revoke endpoint method given known listed rfl rfl
  | authorizations _ method | masterKeys _ method | ping _ method | retrieve method =>
      exact .idle (not_revokes_of_method (by simp [method])) rfl rfl
  | @bind about key method =>
      refine .idle (not_revokes_of_method (by simp [method])) ?_ rfl
      rw [listedUris?, Table.find?_modify]
      split
      · rename_i same
        rw [← same, Option.map_map]
        rfl
      · rfl
  | @changeMasterKeys awsKms keys _ endpoint =>
      refine .idle (fun revokes => ?_) rfl rfl
      have clash := endpoint.symm.trans revokes.1
      cases awsKms <;> exact absurd clash (by decide)

/-- What the authorizations on a resource have to do with the URIs that it lists. -/
structure Ledger (revoked : Prop) (uri : String) (state : State) : Prop where
  unknown : state.listedUris? uri = none → state.grantedUris uri = [] ∧ ¬ revoked
  known : ∀ uris, state.listedUris? uri = some uris →
    (state.grantedUris uri).Sublist uris ∧ (state.grantedUris uri = uris ↔ ¬ revoked)

theorem Grants.ledger (grants : Grants request reply uri state next)
    (ledger : state.Ledger revoked uri)
    (once : reply.resource.map Resource.uri = some uri → state.resources.contains uri = false) :
    next.Ledger (revoked ∨ request.Revokes uri) uri := by
  cases grants with
  | create kept made listed granted =>
      obtain ⟨nobody, never⟩ := ledger.unknown (listedUris?_eq_none_iff.mpr (once made))
      rw [nobody, List.nil_append] at granted
      refine ⟨fun absent => ?_, fun uris there => ?_⟩
      · cases listed.symm.trans absent
      · obtain rfl := Option.some.inj (listed.symm.trans there)
        rw [granted]
        exact ⟨List.Sublist.refl _, by simp [never, kept]⟩
  | @extend added kept nothing listed granted =>
      refine ⟨fun absent => ?_, fun uris there => ?_⟩
      · have missing := Option.map_eq_none_iff.mp (listed.symm.trans absent)
        obtain ⟨nobody, never⟩ := ledger.unknown missing
        rw [granted, nobody, nothing missing]
        exact ⟨rfl, by simp [never, kept]⟩
      · obtain ⟨before, was, rfl⟩ := Option.map_eq_some_iff.mp (listed.symm.trans there)
        obtain ⟨among, all⟩ := ledger.known before was
        rw [granted, List.append_left_inj, all]
        exact ⟨among.append_right added, by simp [kept]⟩
  | revoke revokes known listed fewer less =>
      refine ⟨fun absent => (known (listed.symm.trans absent)).elim, fun uris there => ?_⟩
      have among := (ledger.known uris (listed.symm.trans there)).1
      refine ⟨fewer.trans among, iff_of_false (fun same => ?_) fun never => never (.inr revokes)⟩
      -- The list of the resource did not get shorter with the authorizations.
      have bound := among.length_le
      rw [same] at less
      omega

theorem Ledger.congr (ledger : state.Ledger revoked uri) (resources : next.resources = state.resources)
    (authorizations : next.authorizations = state.authorizations) : next.Ledger revoked uri := by
  have listed : next.listedUris? uri = state.listedUris? uri := by
    rw [listedUris?, listedUris?, resources]
  have granted : next.grantedUris uri = state.grantedUris uri := by
    rw [grantedUris, grantedUris, authorizationsOf, authorizationsOf, authorizations]
  refine ⟨fun missing => ?_, fun uris there => ?_⟩
  · rw [granted]
    exact ledger.unknown (listed.symm.trans missing)
  · rw [granted]
    exact ledger.known uris (listed.symm.trans there)

theorem Ledger.step (ledger : state.Ledger revoked uri) (unscripted : state.script = [])
    (event : Event)
    (once : (⟨state, draws, event⟩ : Moment).Creates uri → state.resources.contains uri = false) :
    (event.next state draws).1.Ledger (revoked ∨ (⟨state, draws, event⟩ : Moment).Revokes uri)
      uri := by
  have quiet (silent : (⟨state, draws, event⟩ : Moment).answer? = none) {after : State}
      (rests : after.Ledger revoked uri) :
      after.Ledger (revoked ∨ (⟨state, draws, event⟩ : Moment).Revokes uri) uri := by
    simpa [Moment.Revokes, silent] using rests
  cases event with
  | addKey | prepare | forgetCalls | moveKey => exact quiet rfl (ledger.congr rfl rfl)
  | receive call =>
      change (state.receive draws call).2.1.Ledger _ uri
      rcases answer?_cases unscripted draws call with ⟨reply, rest, answered, given⟩ | ⟨same, silent⟩
      · simp only [Moment.Revokes, Moment.Creates, given, Option.mem_some_iff, exists_eq_left']
          at once ⊢
        exact (answered.grants uri).ledger (ledger.congr rfl rfl) once
      · exact quiet silent (same ▸ ledger.congr rfl rfl)

theorem ledger_course {events : List Event} (unscripted : state.script = [])
    (plain : ∀ outcome, .prepare outcome ∉ events) (ledger : state.Ledger revoked uri)
    (once : ∀ moment ∈ moments events state draws,
      moment.Creates uri → moment.state.resources.contains uri = false) :
    (course State.receive events state draws).2.1.Ledger
      (revoked ∨ ∃ moment ∈ moments events state draws, moment.Revokes uri) uri := by
  induction events generalizing state draws revoked with
  | nil =>
      simp only [moments, List.not_mem_nil, false_and, exists_false, or_false]
      exact ledger
  | cons event later ih =>
      obtain ⟨first, rest⟩ := List.forall_mem_cons.mp once
      have still : (event.next state draws).1.script = [] :=
        script_next unscripted (fun outcome same => plain outcome (same ▸ List.mem_cons_self)) draws
      have ended := ih still (fun outcome there => plain outcome (List.mem_cons_of_mem _ there))
        (ledger.step unscripted event first) rest
      simp only [course_cons, moments, List.mem_cons, exists_eq_or_imp, ← or_assoc]
      exact ended

end State

open State

/-- No outcome is ever prepared for a broker, and a resource was created under a URI that was not
taken. Then the URIs of the authorizations on it are among those that the resource lists, in the same
order. The two lists hold the same URIs, equally often, exactly if no authorizations were ever taken
off the resource. -/
theorem authorizationUris_perm_iff {host : String} {events : List Event}
    (plain : ∀ outcome, .prepare outcome ∉ events) {start : Draws} {uri : String}
    (once : ∀ moment ∈ moments events { host } start,
      moment.Creates uri → moment.state.resources.contains uri = false) {resource : Resource}
    (known : (course State.receive events { host } start).2.1.resources.find? uri =
      some resource) :
    let state := (course State.receive events { host } start).2.1
    let granted := (state.authorizationsOf uri).map Authorization.uri
    granted.Sublist resource.authorizationUris ∧
      (resource.authorizationUris.Perm granted ↔
        ∀ moment ∈ moments events { host } start, ¬ moment.Revokes uri) := by
  intro state granted
  have new : State.Ledger False uri { host } :=
    ⟨fun _ => ⟨rfl, not_false⟩, fun uris there => by cases there⟩
  have ledger : state.Ledger _ uri := ledger_course rfl plain new once
  have listed : state.listedUris? uri = some resource.authorizationUris := by
    rw [listedUris?, known, Option.map_some]
  obtain ⟨among, all⟩ := ledger.known _ listed
  refine ⟨among, Iff.trans ⟨fun perm => ?_, fun same => ?_⟩ (all.trans (by simp))⟩
  · exact among.eq_of_length perm.length_eq.symm
  · exact .of_eq same.symm

/-- Two users are authorized when a resource is created, and one of them once more. -/
theorem authorizationUris_perm_iff_kept :
    let uri := "kms://kms/resources/00000000000000000000000000000000"
    let events : List Event := [
      .receive ⟨{ method := .create, uri := Endpoint.resources, userIds := ["ann", "bob"] }, none⟩,
      .receive ⟨{ method := .create, uri := Endpoint.authorizations, resourceUri := some uri,
                  userIds := ["ann"] }, none⟩]
    let start : Draws := { source := fun _ _ => 0 }
    let state := (course State.receive events { host := "kms" } start).2.1
    (∀ outcome, .prepare outcome ∉ events) ∧
      (∀ moment ∈ moments events { host := "kms" } start,
        moment.Creates uri → moment.state.resources.contains uri = false) ∧
      ∃ resource, state.resources.find? uri = some resource ∧
        resource.authorizationUris.Perm ((state.authorizationsOf uri).map Authorization.uri) := by
  intro uri events start state
  have plain : ∀ outcome, .prepare outcome ∉ events := by simp [events]
  have once : ∀ moment ∈ moments events { host := "kms" } start,
      moment.Creates uri → moment.state.resources.contains uri = false := by
    decide +kernel
  have kept : ∀ moment ∈ moments events { host := "kms" } start, ¬ moment.Revokes uri := by
    decide +kernel
  have found : (state.resources.find? uri).isSome = true := by decide +kernel
  obtain ⟨resource, known⟩ := Option.isSome_iff_exists.mp found
  have same := (authorizationUris_perm_iff plain once known).2
  exact ⟨plain, once, resource, known, same.mpr kept⟩

/-- A user is authorized and taken off. The resource still lists the URI of that authorization. -/
theorem authorizationUris_not_perm :
    let uri := "kms://kms/resources/00000000000000000000000000000000"
    let events : List Event := [
      .receive ⟨{ method := .create, uri := Endpoint.resources, userIds := ["ann"] }, none⟩,
      .receive ⟨{ method := .delete, uri := Endpoint.authorizations, resourceUri := some uri,
                  authId := some "ann" }, none⟩]
    let start : Draws := { source := fun _ _ => 0 }
    let state := (course State.receive events { host := "kms" } start).2.1
    (∀ outcome, .prepare outcome ∉ events) ∧
      ∃ resource, state.resources.find? uri = some resource ∧
        resource.authorizationUris = [uri ++ "/authorizations/ann"] ∧
        state.authorizationsOf uri = [] ∧
        ¬ resource.authorizationUris.Perm
          ((state.authorizationsOf uri).map Authorization.uri) := by
  intro uri events start state
  refine ⟨by simp [events], ⟨uri, [], [uri ++ "/authorizations/ann"]⟩, ?_⟩
  decide +kernel

end FieldCrypt.Broker
