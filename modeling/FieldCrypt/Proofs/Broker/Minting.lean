import FieldCrypt.Proofs.Broker.Creation
import FieldCrypt.Proofs.Broker.History
import FieldCrypt.Proofs.Broker.Keys
import FieldCrypt.Proofs.Client.OneHop
import Mathlib.Data.List.Nodup

/-!
# New keys are there

A request for keys makes as many as it asks for, each under a URI of its own when no id is drawn
twice. What was kept before stays, and every new key is retrieved as it was handed out, with one
request, by a client that has not seen it yet.
-/

namespace FieldCrypt

open Broker

namespace Broker

/-- The URI of the key with an id on a host. -/
def keyUri (host id : String) : KeyUri := ⟨"kms://" ++ host ++ "/keys/" ++ id⟩

theorem keyUri_isKms (host id : String) : (keyUri host id).IsKms := by
  have begins : KeyUri.scheme.isPrefixOf (keyUri host id).text.toList = true := by
    rw [List.isPrefixOf_iff_prefix]
    exact ⟨host.toList ++ "/keys/".toList ++ id.toList, by simp [keyUri, KeyUri.scheme]⟩
  simp only [KeyUri.IsKms, KeyUri.afterScheme?, begins, if_true, Option.isSome_some]

theorem keyUri_injective (host : String) : Function.Injective (keyUri host) := by
  intro first second same
  have texts := congrArg (fun uri => uri.text.toList) same
  apply String.toList_inj.mp
  simpa [keyUri] using texts

namespace State

variable {state : State} {draws : Draws} {count : Nat}

/-- The ids of the keys that are made next. Behind each id a secret is drawn. -/
def nextIds : (count : Nat) → Draws → List String
  | 0, _ => []
  | count + 1, draws =>
    let (id, draws) := drawId draws
    id :: nextIds count (draws.take 32).2

theorem length_nextIds (count : Nat) (draws : Draws) : (nextIds count draws).length = count := by
  induction count generalizing draws with
  | zero => rfl
  | succ count ih => exact congrArg (· + 1) (ih _)

/-- Keys are made under the ids that are drawn. -/
theorem map_uri_makeKeys (count : Nat) (state : State) (draws : Draws) :
    (makeKeys count state draws).1.map KeyEntry.uri =
      (nextIds count draws).map fun id => some (keyUri state.host id).text := by
  induction count generalizing state draws with
  | zero => rfl
  | succ count ih => exact congrArg (List.cons _) (ih (state.makeKey draws).2.1 _)

theorem exists_id_of_mem_makeKeys {made : KeyEntry} (there : made ∈ (makeKeys count state draws).1) :
    ∃ id ∈ nextIds count draws, made.uri = some (keyUri state.host id).text := by
  have named : made.uri ∈ (makeKeys count state draws).1.map KeyEntry.uri :=
    List.mem_map_of_mem there
  rw [map_uri_makeKeys] at named
  obtain ⟨id, drawn, same⟩ := List.mem_map.mp named
  exact ⟨id, drawn, same.symm⟩

/-- A key is made under the first id, and the others are made after it. -/
theorem uri_makeKey (state : State) (draws : Draws) :
    (state.makeKey draws).1.uri = some (keyUri state.host (drawId draws).1).text := rfl

/-- Under the first of some distinct ids none of the later keys is made. -/
theorem makeKeys_apart_of_nodup (state : State) (distinct : (nextIds (count + 1) draws).Nodup) :
    ∀ made ∈ (makeKeys count (state.makeKey draws).2.1 (state.makeKey draws).2.2).1,
      made.uri ≠ some (keyUri state.host (drawId draws).1).text := by
  intro made there named
  obtain ⟨id, drawn, same⟩ := exists_id_of_mem_makeKeys there
  have texts := Option.some.inj (named.symm.trans same)
  obtain rfl := keyUri_injective state.host (congrArg KeyUri.mk texts)
  exact (List.nodup_cons.mp distinct).1 drawn

/-- Of keys that are made under distinct ids each is found under its URI. -/
theorem find?_makeKeys_self (distinct : (nextIds count draws).Nodup) {made : KeyEntry}
    (there : made ∈ (makeKeys count state draws).1) {uri : String} (named : made.uri = some uri) :
    (makeKeys count state draws).2.1.keys.find? uri = some made := by
  induction count generalizing state draws with
  | zero => cases there
  | succ count ih =>
      have cases : made = (state.makeKey draws).1 ∨
          made ∈ (makeKeys count (state.makeKey draws).2.1 (state.makeKey draws).2.2).1 :=
        List.mem_cons.mp there
      rcases cases with same | later
      · have apart := makeKeys_apart_of_nodup state distinct
        rw [← uri_makeKey, ← same, named] at apart
        calc (makeKeys (count + 1) state draws).2.1.keys.find? uri
          _ = (state.makeKey draws).2.1.keys.find? uri := find?_makeKeys_of_apart apart
          _ = some made := by rw [find?_makeKey, ← same, if_pos named]
      · exact ih (List.nodup_cons.mp distinct).2 later

/-- No key is kept under a URI with one of the ids. -/
def Unused (state : State) (ids : List String) : Prop :=
  ∀ id ∈ ids, state.keys.find? (keyUri state.host id).text = none

/-- As many keys are kept as before and as are made. -/
theorem size_makeKeys (distinct : (nextIds count draws).Nodup)
    (unused : state.Unused (nextIds count draws)) :
    (makeKeys count state draws).2.1.keys.size = state.keys.size + count := by
  induction count generalizing state draws with
  | zero => rfl
  | succ count ih =>
      obtain ⟨first, others⟩ := List.nodup_cons.mp distinct
      obtain ⟨missing, later⟩ := List.forall_mem_cons.mp unused
      have stays : (state.makeKey draws).2.1.Unused (nextIds count (state.makeKey draws).2.2) := by
        intro id drawn
        have differs : (state.makeKey draws).1.uri ≠ some (keyUri state.host id).text := by
          intro same
          have texts := Option.some.inj same
          obtain rfl := keyUri_injective state.host (congrArg KeyUri.mk texts)
          exact first drawn
        calc (state.makeKey draws).2.1.keys.find? (keyUri state.host id).text
          _ = state.keys.find? (keyUri state.host id).text := by rw [find?_makeKey, if_neg differs]
          _ = none := later id drawn
      calc (makeKeys (count + 1) state draws).2.1.keys.size
        _ = (state.makeKey draws).2.1.keys.size + count := ih others stays
        _ = state.keys.size + 1 + count := congrArg (· + count) (Table.size_insert missing _)
        _ = state.keys.size + (count + 1) := by omega

/-- What is kept under other URIs stays. -/
theorem find?_makeKeys_of_unused (unused : state.Unused (nextIds count draws)) {uri : String}
    {key : KeyEntry} (stored : state.keys.find? uri = some key) :
    (makeKeys count state draws).2.1.keys.find? uri = some key := by
  rw [find?_makeKeys_of_apart, stored]
  intro made there named
  obtain ⟨id, drawn, same⟩ := exists_id_of_mem_makeKeys there
  obtain rfl := Option.some.inj (named.symm.trans same)
  cases stored.symm.trans (unused id drawn)

/-- An unscripted broker answers a request for keys with the keys that it makes. -/
theorem receive_createKeys (unscripted : state.script = []) (draws : Draws) (count : UInt32)
    (options : Option Options) :
    let made := makeKeys count.toNat (state.noted { request := .createKeys count, options }) draws
    state.receive draws { request := .createKeys count, options } =
      (.ok { status := 201, keys := made.1, requestId := some state.nextRequestId }, made.2) := by
  rw [receive_eq unscripted]
  rfl

end State

end Broker

/-- The material of an entry that names its own URI. -/
structure KeyMaterial.Of (entry : KeyEntry) (material : KeyMaterial) : Prop where
  uri : entry.uri = some material.uri.text
  named : material.uri.text ≠ ""
  jwk : material.jwk = entry.jwk

theorem KeyMaterial.Of.material?_eq {entry : KeyEntry} {material : KeyMaterial}
    (own : KeyMaterial.Of entry material) (otherwise : Option String) :
    entry.material? otherwise = some material := by
  have full : (!material.uri.text.isEmpty) = true := by simpa using own.named
  rw [KeyEntry.material?, KeyEntry.firstNonempty, own.uri, Option.filter_some, if_pos full,
    ← own.jwk]
  rfl

namespace Client

theorem materials_of_forall₂ {entries : List KeyEntry} {found : List KeyMaterial}
    (own : List.Forall₂ KeyMaterial.Of entries found) : materials entries = .ok found := by
  induction own with
  | nil => rfl
  | cons first _ ih =>
      rw [materials, List.mapM_cons, ← materials, ih, first.material?_eq none]
      rfl

theorem exists_entry_of_mem {entries : List KeyEntry} {found : List KeyMaterial}
    (own : List.Forall₂ KeyMaterial.Of entries found) {material : KeyMaterial}
    (there : material ∈ found) : ∃ entry ∈ entries, KeyMaterial.Of entry material := by
  induction own with
  | nil => cases there
  | cons first _ ih =>
      rcases List.mem_cons.mp there with rfl | later
      · exact ⟨_, List.mem_cons_self, first⟩
      · obtain ⟨entry, among, same⟩ := ih later
        exact ⟨entry, List.mem_cons_of_mem _ among, same⟩

/-- New keys have material, under the URIs with their ids. -/
theorem exists_materials_makeKeys (count : Nat) (state : State) (draws : Draws) :
    ∃ found : List KeyMaterial,
      List.Forall₂ KeyMaterial.Of (State.makeKeys count state draws).1 found ∧
      found.map KeyMaterial.uri = (State.nextIds count draws).map (keyUri state.host) := by
  induction count generalizing state draws with
  | zero => exact ⟨[], .nil, rfl⟩
  | succ count ih =>
      obtain ⟨found, own, uris⟩ := ih (state.makeKey draws).2.1 (state.makeKey draws).2.2
      let first : KeyMaterial :=
        ⟨keyUri state.host (State.drawId draws).1, (state.makeKey draws).1.jwk⟩
      have named : first.uri.text ≠ "" := (keyUri_isKms _ _).ne_of_plain rfl
      exact ⟨first :: found, .cons ⟨rfl, named, rfl⟩ own, congrArg (List.cons first.uri) uris⟩

section Retrieve

variable {shared : Shared Simulation} {uri : KeyUri} {jwk : Json}
  (unscripted : shared.outside.broker.script = []) (kms : uri.IsKms)
  (holds : shared.outside.broker.Holds uri jwk)
  (stays : shared.outside.broker.migrations.find? uri.text = none)

include unscripted kms holds stays

/-- A key that is kept and was never moved is fetched with one request. -/
theorem run_fetch_held (options : Option Options) :
    Routine.run Simulation.environment.handle (fetch uri options) shared =
      some (.ok ⟨uri, jwk⟩, { shared with
        outside := { shared.outside with
          broker := shared.outside.broker.noted { request := .retrieve uri.text, options } } }) := by
  obtain ⟨here, key⟩ := State.key_of_holds kms holds stays
  have received := State.receive_retrieve kms unscripted shared.outside.draws options
  have ran : Routine.run Simulation.environment.handle (send (.retrieve uri.text) options) shared =
      some (shared.outside.broker.retrieved uri, { shared with
        outside := { shared.outside with
          broker := shared.outside.broker.noted { request := .retrieve uri.text, options } } }) := by
    rw [send, Routine.run_pause, Routine.ask, Routine.run_call rfl, Routine.run_done]
    simp only [Simulation.environment, received]
  rw [fetch, Routine.run_bind, ran, Option.bind_some]
  simp only [here]
  rw [Routine.pure_eq, Routine.run_done, key]

theorem run_fetchInto_held (cache : CacheId) :
    ∃ last, Routine.run Simulation.environment.handle (fetchInto cache uri) shared =
        some (.ok ⟨uri, jwk⟩, last) ∧
      last.outside.broker =
        shared.outside.broker.noted { request := .retrieve uri.text, options := none } := by
  rw [fetchInto, Routine.run_bind, run_fetch_held unscripted kms holds stays, Option.bind_some]
  simp only
  rw [Routine.run_bind, Routine.ask, Routine.run_call rfl, Routine.run_done, Option.bind_some,
    Routine.pure_eq, Routine.run_done]
  exact ⟨_, rfl, rfl⟩

/-- So it is by any client whose cache does not have it. -/
theorem run_resolveKey_held {client : Client} (missing : client.cached? shared uri = none)
    (options : Options) :
    ∃ last, Routine.run Simulation.environment.handle (client.resolveKey uri options) shared =
        some (.ok ⟨uri, jwk⟩, last) ∧
      last.outside.broker =
        shared.outside.broker.noted { request := .retrieve uri.text, options := options.sent? } := by
  have named : ¬ uri.isEmpty = true := by
    rw [kms.isEmpty_eq_false]
    exact Bool.false_ne_true
  rw [resolveKey, if_neg named]
  split
  · rename_i cache unset own
    rw [cached?, own, Option.bind_some] at missing
    let after := shared.setCache cache ((shared.cache cache).get? uri).2
    have looked : Simulation.environment.handle _ (.lookup cache uri) shared =
        some (none, after) := by
      simp only [Environment.handle, missing, after]
    rw [unset, Routine.run_bind, Routine.ask, Routine.run_call looked, Routine.run_done,
      Option.bind_some]
    exact @run_fetchInto_held after uri jwk unscripted kms holds stays cache
  · exact ⟨_, run_fetch_held unscripted kms holds stays _, rfl⟩

end Retrieve

/-- A client that was just made has seen no key. -/
theorem cached?_create {σ : Type} (config : ClientConfig) (shared : Shared σ) (uri : KeyUri) :
    (create config shared).1.cached? (create config shared).2 uri = none := by
  unfold create
  split
  · simp only [cached?, Option.bind_some, Shared.addCache, Shared.cache_setCache]
    rfl
  · rfl

/-- Making a client is nothing to the outside. -/
theorem outside_create {σ : Type} (config : ClientConfig) (shared : Shared σ) :
    (create config shared).2.outside = shared.outside := by
  unfold create
  split <;> rfl

/-- A client that was just made retrieves a key that is kept, whatever else was retrieved before. -/
theorem run_resolveKey_created {before later : Shared Simulation}
    (same : later.outside.broker.tables = before.outside.broker.tables)
    (unscripted : before.outside.broker.script = []) {uri : KeyUri} (kms : uri.IsKms) {jwk : Json}
    (holds : before.outside.broker.Holds uri jwk)
    (stays : before.outside.broker.migrations.find? uri.text = none) (config : ClientConfig)
    (options : Options) :
    let (client, shared) := create config later
    ∃ final,
      Routine.run Simulation.environment.handle (client.resolveKey uri options) shared =
        some (.ok ⟨uri, jwk⟩, final) ∧
      final.outside.broker.calls = later.outside.broker.calls ++
        [{ request := .retrieve uri.text, options := options.sent? }] := by
  have keys := congrArg State.keys same
  have migrations := congrArg State.migrations same
  have script := congrArg State.script same
  change later.outside.broker.keys = before.outside.broker.keys at keys
  change later.outside.broker.migrations = before.outside.broker.migrations at migrations
  change later.outside.broker.script = before.outside.broker.script at script
  rw [State.Holds, State.kept?, ← keys] at holds
  rw [← migrations] at stays
  have outside := outside_create config later
  obtain ⟨final, ran, logged⟩ := @run_resolveKey_held (create config later).2 uri jwk
    (by rw [outside, script, unscripted]) kms (by rw [outside]; exact holds)
    (by rw [outside]; exact stays) _ (cached?_create config later uri) options
  refine ⟨final, ran, ?_⟩
  rw [logged, outside]
  rfl

/-- An unscripted broker is asked for keys, with ids that are drawn once each and belong to no key
that is kept or was moved. One request is enough, and as many keys as asked for are handed out, each
under the URI with its id. There are that many more keys in the broker, and those from before are as
they were. As long as nothing but retrieving happens, a client that was just made retrieves each new
key, the same as it was handed out, with one request. -/
theorem createKeys_retrieved {shared : Shared Simulation}
    (unscripted : shared.outside.broker.script = []) (count : UInt32)
    (distinct : (State.nextIds count.toNat shared.outside.draws).Nodup)
    (unused : ∀ id ∈ State.nextIds count.toNat shared.outside.draws,
      let uri := keyUri shared.outside.broker.host id
      shared.outside.broker.keys.find? uri.text = none ∧
        shared.outside.broker.migrations.find? uri.text = none) :
    let broker := shared.outside.broker
    ∃ found last,
      Routine.run Simulation.environment.handle (createKeys count) shared =
        some (.ok found, last) ∧
      last.outside.broker.calls =
        broker.calls ++ [{ request := .createKeys count, options := none }] ∧
      found.length = count.toNat ∧
      found.map KeyMaterial.uri =
        (State.nextIds count.toNat shared.outside.draws).map (keyUri broker.host) ∧
      (found.map KeyMaterial.uri).Nodup ∧
      last.outside.broker.keys.size = broker.keys.size + count.toNat ∧
      (∀ uri key, broker.keys.find? uri = some key →
        last.outside.broker.keys.find? uri = some key) ∧
      ∀ key ∈ found, ∀ later : Shared Simulation,
        later.outside.broker.tables = last.outside.broker.tables → ∀ config options,
        let (client, shared) := create config later
        ∃ final,
          Routine.run Simulation.environment.handle (client.resolveKey key.uri options) shared =
            some (.ok key, final) ∧
          final.outside.broker.calls = later.outside.broker.calls ++
            [{ request := .retrieve key.uri.text, options := options.sent? }] := by
  intro broker
  let noted := broker.noted { request := .createKeys count, options := none }
  let made := State.makeKeys count.toNat noted shared.outside.draws
  obtain ⟨found, own, uris⟩ :=
    exists_materials_makeKeys count.toNat noted shared.outside.draws
  have free : noted.Unused (State.nextIds count.toNat shared.outside.draws) :=
    fun id drawn => (unused id drawn).1
  obtain ⟨keys, changed⟩ := State.exists_keys_makeKeys count.toNat noted shared.outside.draws
  let last : Shared Simulation :=
    { shared with outside := { shared.outside with broker := made.2.1, draws := made.2.2 } }
  refine ⟨found, last, ?_, ?_, ?_, uris, ?_, ?_, ?_, ?_⟩
  · have received :=
      State.receive_createKeys unscripted shared.outside.draws count none
    rw [createKeys_eq, Routine.run_pause, Routine.run_call rfl, Routine.run_done]
    simp only [Simulation.environment, received]
    rw [createdKeys_eq rfl, materials_of_forall₂ own]
  · change made.2.1.calls = _
    rw [changed]
    rfl
  · rw [← List.length_map KeyMaterial.uri, uris, List.length_map, State.length_nextIds]
  · rw [uris]
    exact distinct.map (keyUri_injective _)
  · exact State.size_makeKeys distinct free
  · exact fun uri key stored => State.find?_makeKeys_of_unused free stored
  · intro key there later same config options
    have named : key.uri ∈ found.map KeyMaterial.uri := List.mem_map_of_mem there
    rw [uris] at named
    obtain ⟨id, drawn, named⟩ := List.mem_map.mp named
    obtain ⟨entry, among, own⟩ := exists_entry_of_mem own there
    have kms : key.uri.IsKms := named ▸ keyUri_isKms _ id
    refine run_resolveKey_created same ?_ kms ?_ ?_ config options
    · exact (congrArg State.script changed).trans unscripted
    · change made.2.1.Holds key.uri key.jwk
      rw [State.Holds, State.kept?, State.find?_makeKeys_self distinct among own.uri,
        Option.map_some, own.uri, own.jwk]
    · have moved := (unused id drawn).2
      rw [← congrArg KeyUri.text named]
      change made.2.1.migrations.find? _ = none
      rw [changed]
      exact moved

/-- Two keys are made beside one that was moved. -/
theorem createKeys_retrieved_beside :
    let broker := (State.addKey { host := "kms" } "kms://kms/keys/a" (.int 1)).moveKey
      "kms://kms/keys/a" "kms://kms/keys/b"
    let shared : Shared Simulation :=
      { outside := { broker, draws := { source := fun number _ => number.toUInt8 } } }
    let ids := State.nextIds (2 : UInt32).toNat shared.outside.draws
    ids.Nodup ∧
    (∀ id ∈ ids, broker.keys.find? (keyUri "kms" id).text = none ∧
      broker.migrations.find? (keyUri "kms" id).text = none) ∧
    ∃ found last,
      Routine.run Simulation.environment.handle (createKeys 2) shared = some (.ok found, last) ∧
      found.length = 2 ∧ last.outside.broker.keys.size = 3 ∧
      ∀ key ∈ found, ∃ final,
        Routine.run Simulation.environment.handle ((create {} last).1.resolveKey key.uri {})
          (create {} last).2 = some (.ok key, final) := by
  intro broker shared ids
  have distinct : ids.Nodup := by decide +kernel
  have unused : ∀ id ∈ ids, broker.keys.find? (keyUri "kms" id).text = none ∧
      broker.migrations.find? (keyUri "kms" id).text = none := by
    unfold ids broker
    decide +kernel
  obtain ⟨found, last, ran, -, length, -, -, size, -, retrieved⟩ :=
    @createKeys_retrieved shared rfl 2 distinct unused
  refine ⟨distinct, unused, found, last, ran, length, size, ?_⟩
  intro key there
  obtain ⟨final, resolved, -⟩ := retrieved key there last rfl {} {}
  exact ⟨final, resolved⟩

end Client

end FieldCrypt
