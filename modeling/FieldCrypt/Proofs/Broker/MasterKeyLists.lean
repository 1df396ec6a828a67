import FieldCrypt.Proofs.Broker.History
import Mathlib.Data.List.Induction

/-!
# Lists of master keys follow the history

Each organization has two lists of master keys, one of them in AWS KMS. A list is what comes of going
through the deeds that were about it and went well, once more and beginning with an empty list. What
was done about other lists, or about anything else, does not matter. Outside AWS KMS no master key has
a backup, because none is sent.
-/

namespace FieldCrypt

open Broker Client

namespace Client.Action

/-- Whose master keys an action is about. -/
def scope? : Action → Option MasterKeyScope
  | masterKeys scope | activateMasterKey scope _ | deleteMasterKeys scope => some scope
  | registerMasterKey upload => some ⟨upload.assignedOrgId, upload.awsKms⟩
  | _ => none

/-- A master key that is registered is named, and no key is bound by the path of an endpoint for
master keys. -/
def Plain : Action → Prop
  | registerMasterKey upload => upload.customerMasterKey ≠ none
  | bindKey _ uri => ∀ awsKms, uri.text ≠ Endpoint.masterKeys awsKms
  | _ => True

/-- A master key can be made active when it is there. Everything else can be done at any time. -/
def Admissible (keys : List MasterKey) : Action → Prop
  | activateMasterKey _ keyId => keyId ≠ "" ∧ ∃ key ∈ keys, key.uri = keyId
  | _ => True

/-- What an action makes of the master keys that it is about: another one is added at the end, all are
relabelled, or none is left. -/
def relabel (keys : List MasterKey) : Action → List MasterKey
  | registerMasterKey upload => keys ++ [{
      uri := upload.customerMasterKey.getD ""
      status := if keys.isEmpty then MasterKey.Status.active else MasterKey.Status.pending
      assignedOrgId := some upload.assignedOrgId
      backup := if upload.awsKms then upload.customerMasterKeyBackup else none }]
  | activateMasterKey _ keyId => keys.map fun key =>
      { key with
        status := if key.uri = keyId then MasterKey.Status.active else MasterKey.Status.inactive }
  | deleteMasterKeys _ => []
  | _ => keys

end Client.Action

namespace Deed

/-- The deed was about these master keys, and went well. -/
def SucceedsOn (scope : MasterKeyScope) (deed : Deed) : Prop :=
  deed.action.scope? = some scope ∧ deed.outcome.isOk = true

instance (scope : MasterKeyScope) : DecidablePred (SucceedsOn scope) := fun deed =>
  inferInstanceAs (Decidable (deed.action.scope? = some scope ∧ deed.outcome.isOk = true))

/-- The master keys with which the deed was answered. -/
def masterKeys? : Deed → Option (List MasterKey)
  | ⟨.masterKeys _, .ok keys⟩ | ⟨.registerMasterKey _, .ok keys⟩
  | ⟨.activateMasterKey .., .ok keys⟩ | ⟨.deleteMasterKeys _, .ok keys⟩ => some keys
  | _ => none

end Deed

namespace Deed

variable {scope : MasterKeyScope}

theorem not_succeedsOn_error (action : Action) (error : ClientError) :
    ¬ SucceedsOn scope ⟨action, .error error⟩ := by
  rintro ⟨-, fine⟩
  cases fine

theorem masterKeys?_error (action : Action) (error : ClientError) :
    masterKeys? ⟨action, .error error⟩ = none := by
  cases action <;> rfl

/-- An action about master keys succeeds when it is answered, with the master keys in the reply. -/
theorem masterKeys?_read {action : Action} (about : action.scope? = some scope) (reply : Reply) :
    SucceedsOn scope ⟨action, action.read reply⟩ ∧
      masterKeys? ⟨action, action.read reply⟩ = some reply.customerMasterKeys := by
  cases action with
  | masterKeys | registerMasterKey | activateMasterKey | deleteMasterKeys =>
      exact ⟨⟨about, rfl⟩, rfl⟩
  | _ => cases about

end Deed

/-- The master keys when the deeds that were about them and went well are gone through, beginning with
none. -/
def masterKeysReplayed (scope : MasterKeyScope) (deeds : List Deed) : List MasterKey :=
  (deeds.filter (Deed.SucceedsOn scope)).foldl (fun keys deed => deed.action.relabel keys) []

theorem masterKeysReplayed_append (scope : MasterKeyScope) (deeds : List Deed) (deed : Deed) :
    masterKeysReplayed scope (deeds ++ [deed]) =
      if deed.SucceedsOn scope then deed.action.relabel (masterKeysReplayed scope deeds)
      else masterKeysReplayed scope deeds := by
  rw [masterKeysReplayed, List.filter_append, List.foldl_append, List.filter_singleton]
  by_cases succeeds : deed.SucceedsOn scope
  · rw [if_pos succeeds, decide_eq_true succeeds]
    rfl
  · rw [if_neg succeeds, decide_eq_false succeeds]
    rfl

theorem Broker.Endpoint.masterKeys_apart (awsKms : Bool) :
    masterKeys awsKms ≠ keys ∧ masterKeys awsKms ≠ resources ∧
      masterKeys awsKms ≠ authorizations ∧ masterKeys awsKms ≠ ping := by
  cases awsKms <;> decide

namespace Broker.State

variable {state : State} {request : Request}

/-- The master keys of a scope. -/
def listOf (state : State) (scope : MasterKeyScope) : List MasterKey :=
  state.masterKeysOf scope.assignedOrgId scope.awsKms

theorem listOf_congr {next : State} (same : next.masterKeys = state.masterKeys)
    (scope : MasterKeyScope) : next.listOf scope = state.listOf scope := by
  rw [listOf, masterKeysOf, same]
  rfl

theorem listOf_of_insert {next : State} {scope : MasterKeyScope} {keys : List MasterKey}
    (changed : next.masterKeys =
      state.masterKeys.insert (scope.assignedOrgId, scope.awsKms) keys) (other : MasterKeyScope) :
    next.listOf other = if scope = other then keys else state.listOf other := by
  rw [listOf, masterKeysOf_of_insert changed]
  have same : (scope.assignedOrgId, scope.awsKms) = (other.assignedOrgId, other.awsKms) ↔
      scope = other := by
    rw [Prod.mk.injEq, ← MasterKeyScope.mk.injEq]
  simp only [same, listOf]

theorem answer_masterKeys (draws : Draws) {awsKms : Bool}
    (uri : request.uri = Endpoint.masterKeys awsKms) :
    state.answer draws request = state.answerMasterKeys draws request awsKms := by
  obtain ⟨keys, resources, authorizations, -⟩ := Endpoint.masterKeys_apart awsKms
  simp only [answer, uri, keys, resources, authorizations, false_and, if_false]
  cases awsKms with
  | false => exact if_pos rfl
  | true => exact (if_neg (by decide)).trans (if_pos rfl)

/-- An action about master keys is answered with what it makes of them, and no other list changes. To
make a master key active that is not there is refused. -/
theorem answer_relabel {action : Action} {scope : MasterKeyScope}
    (about : action.scope? = some scope) (plain : action.Plain)
    (needs : action.request = .ok request) (state : State) (draws : Draws) :
    let keys := action.relabel (state.listOf scope)
    (∃ next, state.answer draws request =
        .ok ({ status := 200, customerMasterKeys := keys }, next, draws) ∧
      ∀ other, next.listOf other = if scope = other then keys else state.listOf other) ∨
    ¬ action.Admissible (state.listOf scope) ∧
      state.answer draws request = .error .masterKeyNotFound := by
  intro keys
  cases action with
  | masterKeys scope =>
      cases about
      cases needs
      left
      rw [answer_masterKeys draws rfl]
      refine ⟨state, rfl, fun other => ?_⟩
      split
      · rename_i same
        rw [← same]
        rfl
      · rfl
  | registerMasterKey upload =>
      cases about
      cases needs
      left
      obtain ⟨uri, named⟩ := Option.ne_none_iff_exists'.mp plain
      rw [answer_masterKeys draws rfl]
      simp only [keys, Action.relabel, answerMasterKeys, MasterKeyUpload.request, named]
      exact ⟨_, rfl, listOf_of_insert rfl⟩
  | activateMasterKey scope keyId =>
      cases about
      obtain rfl := Except.ok.inj (Action.given_of_ok needs)
      rw [answer_masterKeys draws rfl]
      by_cases there : ((state.listOf scope).any fun key => key.uri = keyId) = true
      · left
        exact ⟨_, if_pos there, listOf_of_insert rfl⟩
      · right
        refine ⟨?_, if_neg there⟩
        rintro ⟨-, key, held, same⟩
        exact there (List.any_eq_true.mpr ⟨key, held, decide_eq_true same⟩)
  | deleteMasterKeys scope =>
      cases about
      cases needs
      left
      rw [answer_masterKeys draws rfl]
      exact ⟨_, rfl, listOf_of_insert rfl⟩
  | _ => cases about

end Broker.State

namespace Client.Action

variable {action : Action} {scope : MasterKeyScope} {request : Request}

/-- Only what is about master keys goes to their endpoints. -/
theorem request_apart (elsewhere : action.scope? = none) (plain : action.Plain)
    (single : ¬ action.Resolves) (needs : action.request = .ok request) (awsKms : Bool) :
    request.uri ≠ Endpoint.masterKeys awsKms := by
  obtain ⟨keys, resources, authorizations, ping⟩ := Endpoint.masterKeys_apart awsKms
  cases action with
  | resolveKey => exact (single trivial).elim
  | createKeys =>
      obtain rfl := Except.ok.inj needs
      exact keys.symm
  | bindKey =>
      obtain rfl := Except.ok.inj (given_of_ok (given_of_ok needs))
      exact plain awsKms
  | createResource =>
      obtain rfl := Except.ok.inj needs
      exact resources.symm
  | authorize | authorizations =>
      obtain rfl := Except.ok.inj (given_of_ok needs)
      exact authorizations.symm
  | revoke =>
      obtain rfl := Except.ok.inj (given_of_ok (given_of_ok needs))
      exact authorizations.symm
  | ping =>
      obtain rfl := Except.ok.inj needs
      exact ping.symm
  | _ => cases elsewhere

/-- What is admissible lacks no argument. -/
theorem exists_request (about : action.scope? = some scope) {keys : List MasterKey}
    (admissible : action.Admissible keys) : ∃ request, action.request = .ok request := by
  cases action with
  | activateMasterKey => exact ⟨_, if_neg (mt String.isEmpty_iff.mp admissible.1)⟩
  | masterKeys | registerMasterKey | deleteMasterKeys => exact ⟨_, rfl⟩
  | _ => cases about

/-- Neither role nor backup is sent for master keys outside AWS KMS, whatever is given. -/
theorem request_discreet (about : action.scope? = some scope) (needs : action.request = .ok request)
    (uri : request.uri = Endpoint.masterKeys false) :
    request.customerMasterKeyRole = none ∧ request.customerMasterKeyBackup = none := by
  cases action with
  | masterKeys | deleteMasterKeys =>
      obtain rfl := Except.ok.inj needs
      exact ⟨rfl, rfl⟩
  | registerMasterKey upload =>
      obtain rfl := Except.ok.inj needs
      cases kind : upload.awsKms with
      | true =>
          have given : Endpoint.masterKeys upload.awsKms = Endpoint.masterKeys false := uri
          rw [kind] at given
          exact absurd given (by decide)
      | false =>
          simp only [MasterKeyUpload.request, kind]
          exact ⟨rfl, rfl⟩
  | activateMasterKey scope keyId =>
      obtain rfl := Except.ok.inj (given_of_ok needs)
      exact ⟨rfl, rfl⟩
  | _ => cases about

end Client.Action

namespace Performed

variable {shared last : Shared Simulation} {action : Action} {scope : MasterKeyScope}
  {outcome : Except ClientError action.Answer}
  (performed : Performed action shared outcome last)
  (unscripted : shared.outside.broker.script = []) (plain : action.Plain)

include performed unscripted plain

/-- What is about something else leaves all master keys alone. -/
theorem masterKeys_elsewhere (elsewhere : action.scope? = none) :
    last.outside.broker.masterKeys = shared.outside.broker.masterKeys := by
  cases performed with
  | lacks => rfl
  | resolves resolves same =>
      have masterKeys := congrArg State.masterKeys same
      exact masterKeys
  | @asks request single needs =>
      have received := State.received unscripted shared.outside.draws ⟨request, none⟩
      change (shared.outside.broker.receive shared.outside.draws ⟨request, none⟩).2.1.masterKeys = _
      generalize shared.outside.broker.receive shared.outside.draws ⟨request, none⟩ = came
        at received ⊢
      cases received with
      | answered answered =>
          exact answered.masterKeys_eq (Action.request_apart elsewhere plain single needs)
      | refused => rfl

/-- What is about a list of master keys is not admissible, fails and changes nothing, or else it is
answered with what it makes of the list, and changes no other one. -/
theorem listOf_about (about : action.scope? = some scope) :
    let keys := action.relabel (shared.outside.broker.listOf scope)
    (¬ action.Admissible (shared.outside.broker.listOf scope) ∧ (∃ error, outcome = .error error) ∧
      last.outside.broker.masterKeys = shared.outside.broker.masterKeys) ∨
    (Deed.SucceedsOn scope ⟨action, outcome⟩ ∧ Deed.masterKeys? ⟨action, outcome⟩ = some keys ∧
      ∀ other, last.outside.broker.listOf other =
        if scope = other then keys else shared.outside.broker.listOf other) := by
  intro keys
  cases performed with
  | lacks lacks =>
      refine .inl ⟨fun admissible => ?_, ⟨_, rfl⟩, rfl⟩
      obtain ⟨request, needs⟩ := Action.exists_request about admissible
      cases lacks.symm.trans needs
  | resolves resolves =>
      cases action with
      | resolveKey => cases about
      | _ => exact resolves.elim
  | @asks request single needs =>
      simp only [Simulation.environment]
      rcases State.answer_relabel about plain needs (shared.outside.broker.noted ⟨request, none⟩)
        shared.outside.draws with ⟨next, answers, lists⟩ | ⟨inadmissible, refused⟩
      · let numbered : Reply :=
          { status := 200, customerMasterKeys := keys
            requestId := some shared.outside.broker.nextRequestId }
        have received : shared.outside.broker.receive shared.outside.draws ⟨request, none⟩ =
            (.ok numbered, next, shared.outside.draws) := by
          rw [State.receive_eq unscripted, answers]
          rfl
        right
        rw [received, action.conclude_ok rfl]
        obtain ⟨succeeds, listed⟩ := Deed.masterKeys?_read about numbered
        exact ⟨succeeds, listed, lists⟩
      · left
        rw [State.receive_eq unscripted, refused]
        exact ⟨inadmissible, ⟨_, rfl⟩, rfl⟩

omit plain in
/-- What is sent about master keys outside AWS KMS holds neither role nor backup. -/
theorem sent_discreet (about : action.scope? = some scope) :
    ∃ sent : List Call, last.outside.broker.calls = shared.outside.broker.calls ++ sent ∧
      ∀ call ∈ sent, call.request.uri = Endpoint.masterKeys false →
        call.request.customerMasterKeyRole = none ∧
          call.request.customerMasterKeyBackup = none := by
  cases performed with
  | lacks =>
      exact ⟨[], (List.append_nil _).symm, fun _ there => (List.not_mem_nil there).elim⟩
  | resolves resolves =>
      cases action with
      | resolveKey => cases about
      | _ => exact resolves.elim
  | @asks request single needs =>
      have logged := State.calls_receive unscripted shared.outside.draws ⟨request, none⟩
      refine ⟨[⟨request, none⟩], logged, ?_⟩
      exact List.forall_mem_singleton.mpr (Action.request_discreet about needs)

/-- A deed changes the lists that it is about, if it goes well, and it is answered with what they are
then. -/
theorem listOf_eq (scope : MasterKeyScope) :
    last.outside.broker.listOf scope =
        (if Deed.SucceedsOn scope ⟨action, outcome⟩ then
          action.relabel (shared.outside.broker.listOf scope)
        else shared.outside.broker.listOf scope) ∧
      (action.scope? = some scope → ∀ keys, Deed.masterKeys? ⟨action, outcome⟩ = some keys →
        keys = last.outside.broker.listOf scope) := by
  cases about : action.scope? with
  | none =>
      have idle : ¬ Deed.SucceedsOn scope ⟨action, outcome⟩ := by
        rintro ⟨mine, -⟩
        cases about.symm.trans mine
      rw [if_neg idle]
      exact ⟨State.listOf_congr (performed.masterKeys_elsewhere unscripted plain about) scope, nofun⟩
  | some mine =>
      rcases performed.listOf_about unscripted plain about with
        ⟨-, ⟨error, rfl⟩, same⟩ | ⟨succeeds, listed, lists⟩
      · rw [if_neg (Deed.not_succeedsOn_error action error), Deed.masterKeys?_error]
        exact ⟨State.listOf_congr same scope, nofun⟩
      · rw [lists scope, listed]
        by_cases same : mine = scope
        · subst same
          rw [if_pos rfl, if_pos succeeds]
          exact ⟨rfl, fun _ keys given => (Option.some.inj given).symm⟩
        · have other : ¬ Deed.SucceedsOn scope ⟨action, outcome⟩ := by
            rintro ⟨about', -⟩
            exact same (Option.some.inj (about.symm.trans about'))
          rw [if_neg same, if_neg other]
          exact ⟨rfl, fun mine => (same (Option.some.inj mine)).elim⟩

end Performed

section History

variable {host : String} {deeds : List Deed} {shared : Shared Simulation} {scope : MasterKeyScope}

theorem History.listOf_eq (history : History host deeds shared)
    (plain : ∀ deed ∈ deeds, deed.action.Plain) (scope : MasterKeyScope) :
    shared.outside.broker.listOf scope = masterKeysReplayed scope deeds := by
  induction history with
  | start new =>
      rw [new]
      rfl
  | act before client action ran ih =>
      obtain ⟨earlier, now⟩ := List.forall_mem_append.mp plain
      have performed := Performed.of_run before.unscripted ran
      rw [masterKeysReplayed_append, ← ih earlier]
      exact (performed.listOf_eq before.unscripted (now _ (List.mem_singleton_self _)) scope).1
  | keep before uri jwk ih => exact ih plain
  | move before source target ih => exact ih plain
  | other before same ih =>
      have masterKeys := congrArg State.masterKeys same
      exact (State.listOf_congr masterKeys scope).trans (ih plain)

/-- A deed about master keys was answered with what they were then. -/
theorem History.masterKeys?_eq (history : History host deeds shared)
    (plain : ∀ deed ∈ deeds, deed.action.Plain) {before after : List Deed} {deed : Deed}
    (among : deeds = before ++ deed :: after) (about : deed.action.scope? = some scope)
    {keys : List MasterKey} (listed : deed.masterKeys? = some keys) :
    keys = masterKeysReplayed scope (before ++ [deed]) := by
  induction history generalizing after with
  | start => cases before <;> cases among
  | @act deeds shared last earlier client action outcome ran ih =>
      obtain ⟨first, now⟩ := List.forall_mem_append.mp plain
      rcases after.eq_nil_or_concat with rfl | ⟨rest, final, rfl⟩
      · obtain ⟨rfl, same⟩ := List.append_inj' among rfl
        obtain rfl := (List.cons.inj same).1
        have performed := Performed.of_run earlier.unscripted ran
        obtain ⟨-, answers⟩ :=
          performed.listOf_eq earlier.unscripted (now _ (List.mem_singleton_self _)) scope
        rw [← (earlier.act client action ran).listOf_eq plain scope]
        exact answers about keys listed
      · rw [List.concat_eq_append, ← List.cons_append, ← List.append_assoc] at among
        exact ih first (List.append_inj' among rfl).1
  | keep _ _ _ ih => exact ih plain among
  | move _ _ _ ih => exact ih plain among
  | other _ _ ih => exact ih plain among

/-- What is made of master keys outside AWS KMS has no backup where they have none. -/
theorem Client.Action.backup_relabel {action : Action} (about : action.scope? = some scope)
    (elsewhere : scope.awsKms = false) {keys : List MasterKey}
    (bare : ∀ key ∈ keys, key.backup = none) : ∀ key ∈ action.relabel keys, key.backup = none := by
  cases action with
  | registerMasterKey upload =>
      cases about
      refine List.forall_mem_append.mpr ⟨bare, List.forall_mem_singleton.mpr ?_⟩
      exact if_neg (Bool.eq_false_iff.mp elsewhere)
  | activateMasterKey => exact List.forall_mem_map.mpr bare
  | deleteMasterKeys => exact nofun
  | _ => exact bare

theorem backup_masterKeysReplayed (elsewhere : scope.awsKms = false) (deeds : List Deed) :
    ∀ key ∈ masterKeysReplayed scope deeds, key.backup = none := by
  induction deeds using List.reverseRecOn with
  | nil => exact nofun
  | append_singleton deeds deed ih =>
      rw [masterKeysReplayed_append]
      split
      · rename_i succeeds
        exact Action.backup_relabel succeeds.1 elsewhere ih
      · exact ih

/-- Whatever is admissible is done. -/
theorem History.run_admissible (history : History host deeds shared)
    (plain : ∀ deed ∈ deeds, deed.action.Plain) (client : Client) {action : Action}
    (about : action.scope? = some scope) (named : action.Plain)
    (admissible : action.Admissible (masterKeysReplayed scope deeds)) :
    ∃ outcome last,
      Routine.run Simulation.environment.handle (action.perform client) shared =
        some (outcome, last) ∧
      Deed.masterKeys? ⟨action, outcome⟩ =
        some (action.relabel (masterKeysReplayed scope deeds)) := by
  rw [← history.listOf_eq plain scope] at admissible ⊢
  obtain ⟨outcome, last, ran, performed⟩ := exists_performed history.unscripted client action
  refine ⟨outcome, last, ran, ?_⟩
  rcases performed.listOf_about history.unscripted named about with ⟨not, -⟩ | ⟨-, listed, -⟩
  · exact (not admissible).elim
  · exact listed

/-- After any history in which master keys are named by those who register them, a list of master keys
is what comes of going through the deeds that were about it and went well, and each deed about it that
was answered was answered with what the list was then. Whatever is done to such a list goes well, if
it is not to make a key active that is not there. No key of a list outside AWS KMS has a backup, and no
request that is sent about one holds a role or a backup, whatever is given. -/
theorem masterKeys_replayed (history : History host deeds shared)
    (plain : ∀ deed ∈ deeds, deed.action.Plain) (scope : MasterKeyScope) :
    let held := masterKeysReplayed scope deeds
    shared.outside.broker.masterKeysOf scope.assignedOrgId scope.awsKms = held ∧
    (∀ before deed after keys, deeds = before ++ deed :: after →
      deed.action.scope? = some scope → deed.masterKeys? = some keys →
        keys = masterKeysReplayed scope (before ++ [deed])) ∧
    (∀ client (action : Action), action.scope? = some scope → action.Plain → action.Admissible held →
      ∃ outcome last,
        Routine.run Simulation.environment.handle (action.perform client) shared =
          some (outcome, last) ∧
        Deed.masterKeys? ⟨action, outcome⟩ = some (action.relabel held)) ∧
    (scope.awsKms = false → ∀ seen : List Deed, ∀ key ∈ masterKeysReplayed scope seen,
      key.backup = none) ∧
    ∀ client (action : Action) outcome last, action.scope? = some scope →
      Routine.run Simulation.environment.handle (action.perform client) shared =
        some (outcome, last) →
      ∃ sent : List Call, last.outside.broker.calls = shared.outside.broker.calls ++ sent ∧
        ∀ call ∈ sent, call.request.uri = Endpoint.masterKeys false →
          call.request.customerMasterKeyRole = none ∧
            call.request.customerMasterKeyBackup = none := by
  intro held
  refine ⟨history.listOf_eq plain scope, ?_, ?_, ?_, ?_⟩
  · intro before deed after keys among about listed
    exact history.masterKeys?_eq plain among about listed
  · intro client action about named admissible
    exact history.run_admissible plain client about named admissible
  · intro elsewhere seen
    exact backup_masterKeysReplayed elsewhere seen
  · intro client action outcome last about ran
    exact (Performed.of_run history.unscripted ran).sent_discreet history.unscripted about

/-- Two organizations register master keys, one of them in both of its lists. A key that is not there
is not made active, and the list in AWS KMS is emptied. -/
theorem masterKeys_replayed_apart :
    let register (organization uri : String) (awsKms : Bool) : Action :=
      .registerMasterKey {
        assignedOrgId := organization, awsKms, customerMasterKey := some uri
        customerMasterKeyRole := some "role", customerMasterKeyBackup := some "backup" }
    let own : MasterKeyScope := { assignedOrgId := "org" }
    ∃ deeds shared, History "kms" deeds shared ∧
      deeds.map Deed.action = [
        register "org" "a" false, register "org" "a" true, register "other" "b" false,
        register "org" "b" false, .activateMasterKey own "c", .activateMasterKey own "b",
        .deleteMasterKeys { own with awsKms := true }, .masterKeys own] ∧
      (∀ deed ∈ deeds, deed.action.Plain) ∧
      (∃ before deed, deeds = before ++ [deed] ∧ deed.masterKeys? = some [
        { uri := "a", status := "INACTIVE", assignedOrgId := some "org" },
        { uri := "b", status := "ACTIVE", assignedOrgId := some "org" }]) ∧
      shared.outside.broker.masterKeysOf "other" false =
        [{ uri := "b", status := "ACTIVE", assignedOrgId := some "other" }] := by
  intro register own
  let start : Shared Simulation :=
    { outside := { broker := { host := "kms" }, draws := { source := fun _ _ => 0 } } }
  have new : History "kms" [] start := .start rfl
  have history := (((((((new.ask (register "org" "a" false) id rfl).ask
    (register "org" "a" true) id rfl).ask (register "other" "b" false) id rfl).ask
    (register "org" "b" false) id rfl).ask (.activateMasterKey own "c") id rfl).ask
    (.activateMasterKey own "b") id rfl).ask (.deleteMasterKeys { own with awsKms := true })
    id rfl).ask (.masterKeys own) id rfl
  refine ⟨_, _, history, rfl, ?_⟩
  generalize same : _ ++ [_] = deeds at history ⊢
  have plain : ∀ deed ∈ deeds, deed.action.Plain := by
    rw [← same]
    simp [Action.Plain, register]
  obtain ⟨-, answers, -⟩ := masterKeys_replayed history plain own
  obtain ⟨held, -⟩ := masterKeys_replayed history plain { assignedOrgId := "other" }
  refine ⟨plain, ⟨_, _, same.symm, ?_⟩, ?_⟩
  · generalize listed : Deed.masterKeys? _ = answer
    cases answer with
    | none => exact absurd listed (by decide +kernel)
    | some keys =>
        rw [answers _ _ [] keys same.symm rfl listed]
        decide +kernel
  · rw [held, ← same]
    decide +kernel

end History

end FieldCrypt
