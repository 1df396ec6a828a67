import FieldCrypt.Proofs.Broker.History

/-!
# The active master key

Where an organization has master keys at all, one URI is the active one: some key that was
registered under it is active, and no key under any other URI is. A URI may be registered more than once, and
all its keys become active together.
-/

namespace FieldCrypt.Broker

namespace MasterKey

/-- The master key has the active status. -/
def isActive (key : MasterKey) : Bool := key.status = Status.active

end MasterKey

variable {keys held : List MasterKey}

/-- The keys under one URI, and no others, may be active, and at least one of them is. -/
structure ActiveUnder (uri : String) (keys : List MasterKey) : Prop where
  there : ∃ key ∈ keys, key.uri = uri ∧ key.isActive = true
  only : ∀ key ∈ keys, key.isActive = true → key.uri = uri

/-- There are no keys, or there is an active URI. -/
def Settled (keys : List MasterKey) : Prop := keys = [] ∨ ∃ uri, ActiveUnder uri keys

/-- Where the active URI was registered once, there is one active key. -/
theorem ActiveUnder.countP_eq_one {uri : String} (active : ActiveUnder uri keys)
    (once : keys.countP (fun key => key.uri = uri) = 1) : keys.countP MasterKey.isActive = 1 := by
  have atMost : keys.countP MasterKey.isActive ≤ keys.countP fun key => key.uri = uri := by
    apply List.countP_mono_left
    intro key there isActive
    exact decide_eq_true (active.only key there isActive)
  have atLeast : 0 < keys.countP MasterKey.isActive := by
    obtain ⟨key, there, -, isActive⟩ := active.there
    exact List.countP_pos_iff.mpr ⟨key, there, isActive⟩
  omega

theorem ActiveUnder.activate {uri : String} (there : ∃ key ∈ held, key.uri = uri) :
    ActiveUnder uri (State.activate uri held) where
  there := by
    obtain ⟨key, there, same⟩ := there
    refine ⟨_, List.mem_map_of_mem there, same, ?_⟩
    simp only [MasterKey.isActive, same, if_true, decide_true]
  only key relabelled isActive := by
    obtain ⟨before, -, rfl⟩ := List.mem_map.mp relabelled
    by_contra differ
    rw [MasterKey.isActive, if_neg differ] at isActive
    cases isActive

/-- Another key is registered, and waits. -/
theorem ActiveUnder.append {uri : String} (active : ActiveUnder uri held) {added : MasterKey}
    (waits : added.isActive = false) : ActiveUnder uri (held ++ [added]) where
  there := by
    obtain ⟨key, there, named⟩ := active.there
    exact ⟨key, List.mem_append_left _ there, named⟩
  only key there isActive := by
    rcases List.mem_append.mp there with before | new
    · exact active.only key before isActive
    · obtain rfl := List.mem_singleton.mp new
      rw [waits] at isActive
      cases isActive

theorem ActiveUnder.singleton {key : MasterKey} (isActive : key.isActive = true) :
    ActiveUnder key.uri [key] where
  there := ⟨key, List.mem_singleton_self key, rfl, isActive⟩
  only other there _ := by rw [List.mem_singleton.mp there]

/-- Whatever is done to the master keys of an organization, they stay settled. -/
theorem State.Relabelled.settled {draws draws' : Draws} {request : Request}
    (relabelled : State.Relabelled draws request held keys draws') (settled : Settled held) :
    Settled keys := by
  cases relabelled with
  | register method =>
      right
      rcases settled with rfl | ⟨uri, active⟩
      · exact ⟨_, .singleton rfl⟩
      · refine ⟨uri, active.append ?_⟩
        obtain ⟨key, there, -⟩ := active.there
        have nonempty : held.isEmpty = false :=
          List.isEmpty_eq_false_iff.mpr (List.ne_nil_of_mem there)
        simp only [MasterKey.isActive, nonempty]
        rfl
  | activate method there => exact .inr ⟨_, .activate there⟩
  | delete method => exact .inl rfl

/-- An answer changes the master keys of one organization, or none. -/
theorem State.Answered.masterKeys_cases {state next : State} {draws draws' : Draws}
    {request : Request} {reply : Reply}
    (answered : State.Answered state draws request reply next draws') :
    next.masterKeys = state.masterKeys ∨ ∃ organization awsKms keys,
      State.Relabelled draws request (state.masterKeysOf organization awsKms) keys draws' ∧
        next.masterKeys = state.masterKeys.insert (organization, awsKms) keys := by
  cases answered with
  | createKeys =>
      obtain ⟨keys, made⟩ := state.exists_keys_createKeys draws request
      left
      rw [made]
  | changeMasterKeys uri relabelled => exact .inr ⟨_, _, _, relabelled, rfl⟩
  | _ => exact .inl rfl

/-- All lists of master keys are settled. -/
def State.MasterKeysSettled (state : State) : Prop :=
  ∀ organization awsKms, Settled (state.masterKeysOf organization awsKms)

theorem State.MasterKeysSettled.congr {state next : State} (settled : state.MasterKeysSettled)
    (same : next.masterKeys = state.masterKeys) : next.MasterKeysSettled := by
  intro organization awsKms
  rw [masterKeysOf, same]
  exact settled organization awsKms

theorem State.MasterKeysSettled.of_tables {state next : State} (settled : state.MasterKeysSettled)
    (same : next.tables = state.tables) : next.MasterKeysSettled := by
  have masterKeys := congrArg State.masterKeys same
  exact settled.congr masterKeys

theorem State.MasterKeysSettled.receive {state : State} (settled : state.MasterKeysSettled)
    (unscripted : state.script = []) (draws : Draws) (call : Call) :
    (state.receive draws call).2.1.MasterKeysSettled := by
  have received := State.received unscripted draws call
  generalize state.receive draws call = came at received ⊢
  cases received with
  | refused => exact settled.congr rfl
  | answered answered =>
      rcases answered.masterKeys_cases with same | ⟨organization, awsKms, keys, relabelled, changed⟩
      · exact settled.congr same
      · intro other kind
        rw [masterKeysOf, changed, Table.find?_insert]
        split
        · exact relabelled.settled (settled organization awsKms)
        · exact settled other kind

end FieldCrypt.Broker

namespace FieldCrypt

open Broker Client

theorem History.masterKeysSettled {host : String} {deeds : List Deed} {shared : Shared Simulation}
    (history : History host deeds shared) : shared.outside.broker.MasterKeysSettled := by
  induction history with
  | start new =>
      intro organization awsKms
      rw [new]
      exact .inl rfl
  | act before client action ran settled =>
      cases Performed.of_run before.unscripted ran with
      | lacks => exact settled
      | asks single needs => exact settled.receive before.unscripted _ _
      | resolves resolves same => exact settled.of_tables same
  | keep before uri jwk settled => exact settled.congr rfl
  | move before source target settled => exact settled.congr rfl
  | other before same settled => exact settled.of_tables same

/-- After any history of all that clients can be asked for, an organization has no master keys, or
some of its keys are active and all of these were registered under one URI. One key alone is active
if the URI was registered once. -/
theorem active_masterKey {host : String} {deeds : List Deed} {shared : Shared Simulation}
    (history : History host deeds shared) (organization : String) (awsKms : Bool) :
    let keys := shared.outside.broker.masterKeysOf organization awsKms
    keys = [] ∨ ∃ uri, (∃ key ∈ keys, key.uri = uri ∧ key.isActive = true) ∧
      (∀ key ∈ keys, key.isActive = true → key.uri = uri) ∧
      (keys.countP (fun key => key.uri = uri) = 1 → keys.countP MasterKey.isActive = 1) := by
  intro keys
  rcases history.masterKeysSettled organization awsKms with none | ⟨uri, active⟩
  · exact .inl none
  · exact .inr ⟨uri, active.there, active.only, active.countP_eq_one⟩

/-- Two keys are registered and the second one is made active. -/
theorem active_masterKey_second :
    ∃ deeds shared, History "kms" deeds shared ∧
      deeds.map Deed.action = [
        .registerMasterKey { assignedOrgId := "org", customerMasterKey := some "a" },
        .registerMasterKey { assignedOrgId := "org", customerMasterKey := some "b" },
        .activateMasterKey { assignedOrgId := "org" } "b"] ∧
      let keys := shared.outside.broker.masterKeysOf "org" false
      keys ≠ [] ∧
      (keys = [] ∨ ∃ uri, (∃ key ∈ keys, key.uri = uri ∧ key.isActive = true) ∧
        (∀ key ∈ keys, key.isActive = true → key.uri = uri) ∧
        (keys.countP (fun key => key.uri = uri) = 1 → keys.countP MasterKey.isActive = 1)) := by
  let start : Shared Simulation :=
    { outside := { broker := { host := "kms" }, draws := { source := fun _ _ => 0 } } }
  let register (uri : String) : Action :=
    .registerMasterKey { assignedOrgId := "org", customerMasterKey := some uri }
  have new : History "kms" [] start := .start rfl
  have first := new.ask (register "a") id rfl
  have second := first.ask (register "b") id rfl
  have third := second.ask (.activateMasterKey { assignedOrgId := "org" } "b") id rfl
  refine ⟨_, _, third, rfl, ?_, active_masterKey third "org" false⟩
  decide +kernel

/-- A key is registered twice and made active: then two keys are active. -/
theorem active_masterKey_twice :
    ∃ deeds shared, History "kms" deeds shared ∧
      deeds.map Deed.action = [
        .registerMasterKey { assignedOrgId := "org", customerMasterKey := some "a" },
        .registerMasterKey { assignedOrgId := "org", customerMasterKey := some "a" },
        .activateMasterKey { assignedOrgId := "org" } "a"] ∧
      let keys := shared.outside.broker.masterKeysOf "org" false
      ¬ (keys = [] ∨ keys.countP MasterKey.isActive = 1) := by
  let start : Shared Simulation :=
    { outside := { broker := { host := "kms" }, draws := { source := fun _ _ => 0 } } }
  let register : Action :=
    .registerMasterKey { assignedOrgId := "org", customerMasterKey := some "a" }
  have new : History "kms" [] start := .start rfl
  have first := new.ask register id rfl
  have second := first.ask register id rfl
  have third := second.ask (.activateMasterKey { assignedOrgId := "org" } "a") id rfl
  refine ⟨_, _, third, rfl, ?_⟩
  decide +kernel

end FieldCrypt
