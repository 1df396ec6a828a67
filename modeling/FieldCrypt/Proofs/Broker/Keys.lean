import FieldCrypt.Proofs.Broker.Events

/-!
# Keys stay

Whatever happens to a broker, every key is kept under the URI that it names. No call takes a key away
or changes a web key: the calls that create keys add them, and a call that binds a key changes the
resource of that one key.
-/

namespace FieldCrypt.Broker.State

variable {state next : State} {draws draws' : Draws} {request : Request} {reply : Reply}
  {call : Call} {uri : String} {key : KeyEntry}

/-- A new key is kept under its URI. -/
theorem find?_makeKey (state : State) (draws : Draws) (uri : String) :
    (state.makeKey draws).2.1.keys.find? uri =
      if (state.makeKey draws).1.uri = some uri then some (state.makeKey draws).1
      else state.keys.find? uri := by
  simp only [makeKey, Table.find?_insert, Option.some.injEq]

/-- Where a key is found after some were made, it was there before or it is one of them. -/
theorem find?_makeKeys {count : Nat}
    (found : (makeKeys count state draws).2.1.keys.find? uri = some key) :
    state.keys.find? uri = some key ∨
      key ∈ (makeKeys count state draws).1 ∧ key.uri = some uri := by
  induction count generalizing state draws with
  | zero => exact .inl found
  | succ count ih =>
      have later : (makeKeys count (state.makeKey draws).2.1 (state.makeKey draws).2.2).2.1.keys.find?
          uri = some key := found
      rcases ih later with before | ⟨made, named⟩
      · rw [find?_makeKey] at before
        split at before
        · rename_i named
          obtain rfl := Option.some.inj before
          exact .inr ⟨List.mem_cons_self, named⟩
        · exact .inl before
      · exact .inr ⟨List.mem_cons_of_mem _ made, named⟩

/-- What is kept under a URI that no new key has stays there. -/
theorem find?_makeKeys_of_apart {count : Nat}
    (apart : ∀ made ∈ (makeKeys count state draws).1, made.uri ≠ some uri) :
    (makeKeys count state draws).2.1.keys.find? uri = state.keys.find? uri := by
  induction count generalizing state draws with
  | zero => rfl
  | succ count ih =>
      have first : (state.makeKey draws).1.uri ≠ some uri := apart _ List.mem_cons_self
      calc
        _ = (state.makeKey draws).2.1.keys.find? uri :=
          ih fun made there => apart made (List.mem_cons_of_mem _ there)
        _ = state.keys.find? uri := by rw [find?_makeKey, if_neg first]

/-- The keys that are made for a call. -/
def minted (state : State) (draws : Draws) (call : Call) : List KeyEntry :=
  if state.script.isEmpty ∧ call.request.uri = Endpoint.keys ∧ call.request.method = .create then
    ((state.noted call).createKeys draws call.request).1.keys
  else []

/-- An answer adds new keys, binds one key, or leaves the keys as they are. -/
theorem Answered.keys_cases (answered : Answered state draws request reply next draws') :
    (request.uri = Endpoint.keys ∧ request.method = .create ∧
      reply = (state.createKeys draws request).1 ∧ next = (state.createKeys draws request).2.1) ∨
    (∃ resource key, request.method = .update ∧ request.resourceUri = some resource ∧
      state.keys.find? request.uri = some key ∧
      next.keys = state.keys.insert request.uri { key with resourceUri := some resource }) ∨
    next.keys = state.keys := by
  cases answered with
  | createKeys uri method => exact .inl ⟨uri, method, rfl, rfl⟩
  | bind method about found => exact .inr (.inl ⟨_, _, method, about, found, rfl⟩)
  | _ => exact .inr (.inr rfl)

/-- Every key names the URI that it is kept under. -/
def KeysNamed (state : State) : Prop :=
  ∀ uri key, state.keys.find? uri = some key → key.uri = some uri

namespace KeysNamed

theorem congr (named : state.KeysNamed) (same : next.keys = state.keys) : next.KeysNamed := by
  intro uri key found
  rw [same] at found
  exact named uri key found

/-- A key that names a URI is put there. -/
theorem insert (named : state.KeysNamed) (itself : key.uri = some uri)
    (changed : next.keys = state.keys.insert uri key) : next.KeysNamed := by
  intro other held found
  rw [changed, Table.find?_insert] at found
  split at found
  · rename_i same
    rw [← Option.some.inj found, itself, same]
  · exact named other held found

theorem moveKey (named : state.KeysNamed) (source target : String) :
    (state.moveKey source target).KeysNamed := by
  cases there : state.keys.find? source with
  | none => exact named.congr (by simp only [State.moveKey, there])
  | some key =>
      have without : KeysNamed { state with keys := state.keys.erase source } := by
        intro other held found
        rw [Table.find?_erase] at found
        split at found
        · cases found
        · exact named other held found
      have itself : ({ key with uri := some target } : KeyEntry).uri = some target := rfl
      refine without.insert itself ?_
      simp only [State.moveKey, there]

theorem answered (named : state.KeysNamed)
    (answered : Answered state draws request reply next draws') : next.KeysNamed := by
  rcases answered.keys_cases with ⟨-, -, -, rfl⟩ | ⟨resource, key, -, -, found, changed⟩ | same
  · intro uri key found
    rcases find?_makeKeys found with before | ⟨-, itself⟩
    · exact named uri key before
    · exact itself
  · have itself : ({ key with resourceUri := some resource } : KeyEntry).uri = some request.uri :=
      named _ key found
    exact named.insert itself changed
  · exact named.congr same

theorem receive (named : state.KeysNamed) (draws : Draws) (call : Call) :
    (state.receive draws call).2.1.KeysNamed := by
  have noted : (state.noted call).KeysNamed := named
  rcases state.receive_next_cases draws call with same | same | ⟨reply, rest, answered⟩
  · rw [same]
    exact named.congr rfl
  · rw [same]
    exact noted
  · exact noted.answered answered

end KeysNamed

theorem keysNamed_upheld : Upheld KeysNamed where
  addKey named _ _ := named.insert rfl rfl
  moveKey named source target := named.moveKey source target
  prepare named _ := named.congr rfl
  forgetCalls named := named.congr rfl
  receive named draws call := named.receive draws call

theorem Reached.keysNamed {host : String} (reached : state.Reached host) : state.KeysNamed :=
  keysNamed_upheld.reached (fun _ _ found => nomatch found) reached

/-- What a call does to the keys: it makes new ones, it binds one, or it leaves them alone. -/
theorem keys_receive_cases (state : State) (draws : Draws) (call : Call) :
    (∃ reply count, (state.receive draws call).1 = .ok reply ∧
      call.request.uri = Endpoint.keys ∧ call.request.method = .create ∧
      reply.keys = (makeKeys count (state.noted call) draws).1 ∧
      state.minted draws call = (makeKeys count (state.noted call) draws).1 ∧
      (state.receive draws call).2.1.keys =
        (makeKeys count (state.noted call) draws).2.1.keys) ∨
    (∃ reply resource key, (state.receive draws call).1 = .ok reply ∧
      call.request.method = .update ∧ call.request.resourceUri = some resource ∧
      state.keys.find? call.request.uri = some key ∧
      (state.receive draws call).2.1.keys =
        state.keys.insert call.request.uri { key with resourceUri := some resource }) ∨
    (state.receive draws call).2.1.keys = state.keys := by
  rcases state.receive_cases draws call with ⟨outcome, scripted⟩ | ⟨unscripted, received⟩
  · rw [scripted]
    exact .inr (.inr rfl)
  · generalize state.receive draws call = came at received ⊢
    cases received with
    | answered answered =>
        rcases answered.keys_cases with
          ⟨uri, method, rfl, rfl⟩ | ⟨resource, key, method, about, found, changed⟩ | same
        · refine .inl ⟨_, _, rfl, uri, method, rfl, ?_, rfl⟩
          rw [minted, if_pos ⟨by rw [unscripted]; rfl, uri, method⟩]
          rfl
        · exact .inr (.inl ⟨_, resource, key, rfl, method, about, found, changed⟩)
        · exact .inr (.inr same)
    | refused => exact .inr (.inr rfl)

/-- The URIs that are made for the call are not taken. -/
def Fresh (state : State) (draws : Draws) (call : Call) : Prop :=
  ∀ uri ∈ (state.minted draws call).filterMap KeyEntry.uri, state.keys.contains uri = false

/-- A call leaves a key where it is, and binds it at most. -/
theorem find?_receive (fresh : state.Fresh draws call) (stored : state.keys.find? uri = some key) :
    (state.receive draws call).2.1.keys.find? uri = some key ∨
      ∃ reply resource, (state.receive draws call).1 = .ok reply ∧
        call.request.method = .update ∧ call.request.uri = uri ∧
        call.request.resourceUri = some resource ∧
        (state.receive draws call).2.1.keys.find? uri =
          some { key with resourceUri := some resource } := by
  rcases state.keys_receive_cases draws call with
    ⟨reply, count, -, -, -, -, minted, changed⟩ |
      ⟨reply, resource, held, replied, method, about, found, changed⟩ | same
  · left
    have apart : ∀ made ∈ (makeKeys count (state.noted call) draws).1, made.uri ≠ some uri := by
      intro made there named
      rw [← minted] at there
      have free := fresh uri (List.mem_filterMap.mpr ⟨made, there, named⟩)
      rw [Table.contains, stored] at free
      cases free
    rw [changed, find?_makeKeys_of_apart apart]
    exact stored
  · rw [changed, Table.find?_insert]
    by_cases same : call.request.uri = uri
    · subst same
      obtain rfl := Option.some.inj (found.symm.trans stored)
      exact .inr ⟨reply, resource, replied, method, rfl, about, if_pos rfl⟩
    · exact .inl ((if_neg same).trans stored)
  · exact .inl (by rw [same]; exact stored)

/-- A key that a call adds is one that it was to create. -/
theorem mem_keys_of_receive (added : (state.receive draws call).2.1.keys.find? uri = some key)
    (missing : state.keys.find? uri = none) :
    ∃ reply, (state.receive draws call).1 = .ok reply ∧ key ∈ reply.keys ∧
      key.uri = some uri ∧ call.request.uri = Endpoint.keys ∧ call.request.method = .create := by
  rcases state.keys_receive_cases draws call with
    ⟨reply, count, replied, endpoint, method, keys, -, changed⟩ |
      ⟨reply, resource, held, -, -, -, found, changed⟩ | same
  · rw [changed] at added
    rcases find?_makeKeys added with before | ⟨made, named⟩
    · cases missing.symm.trans before
    · rw [← keys] at made
      exact ⟨reply, replied, made, named, endpoint, method⟩
  · rw [changed, Table.find?_insert] at added
    split at added
    · rename_i same
      rw [same] at found
      cases missing.symm.trans found
    · cases missing.symm.trans added
  · rw [same] at added
    cases missing.symm.trans added

end State

open State

/-- Whatever happened to a broker, its keys are kept under the URIs that they name. A call whose new
keys have fresh URIs leaves every key where it is, with the same web key. All that it changes is that
it adds keys which it was to create and hands out, and that the resource of the one key which it was
to bind is another. -/
theorem keys_durable {host : String} {state : State} (reached : state.Reached host) (draws : Draws)
    (call : Call) (fresh : state.Fresh draws call) :
    let came := state.receive draws call
    (∀ uri key, state.keys.find? uri = some key → key.uri = some uri ∧
      ∃ kept, came.2.1.keys.find? uri = some kept ∧ kept.uri = some uri ∧ kept.jwk = key.jwk ∧
        (kept = key ∨ ∃ reply resource, came.1 = .ok reply ∧ call.request.method = .update ∧
          call.request.uri = uri ∧ call.request.resourceUri = some resource ∧
          kept = { key with resourceUri := some resource })) ∧
    (∀ uri key, came.2.1.keys.find? uri = some key → state.keys.find? uri = none →
      ∃ reply, came.1 = .ok reply ∧ key ∈ reply.keys ∧ key.uri = some uri ∧
        call.request.uri = Endpoint.keys ∧ call.request.method = .create) := by
  refine ⟨fun uri key stored => ?_, fun uri key added missing => mem_keys_of_receive added missing⟩
  have named := reached.keysNamed uri key stored
  refine ⟨named, ?_⟩
  rcases find?_receive fresh stored with same |
    ⟨reply, resource, replied, method, about, named', bound⟩
  · exact ⟨key, same, named, rfl, .inl rfl⟩
  · exact ⟨_, bound, named, rfl, .inr ⟨reply, resource, replied, method, about, named', rfl⟩⟩

/-- Two keys are created beside one that was put there. -/
theorem keys_durable_created :
    let state := State.addKey { host := "kms" } "kms://kms/keys/a" (.int 1)
    let draws : Draws := { source := fun number _ => number.toUInt8 }
    let call : Call := { request := .createKeys 2, options := none }
    state.Reached "kms" ∧ state.Fresh draws call ∧ (state.minted draws call).length = 2 ∧
      ∃ kept, (state.receive draws call).2.1.keys.find? "kms://kms/keys/a" = some kept ∧
        kept.jwk = .int 1 := by
  intro state draws call
  have reached : state.Reached "kms" := ⟨[.addKey "kms://kms/keys/a" (.int 1)], draws, rfl⟩
  have fresh : state.Fresh draws call := by
    unfold State.Fresh
    decide +kernel
  refine ⟨reached, fresh, by decide +kernel, ?_⟩
  obtain ⟨-, kept, found, -, same, -⟩ :=
    (keys_durable reached draws call fresh).1 "kms://kms/keys/a" _ rfl
  exact ⟨kept, found, same⟩

end FieldCrypt.Broker
