import FieldCrypt.Proofs.Broker.Events

/-!
# Moved keys

Which URI a broker redirects, and where to, is decided by the last move of a key away from it and by
nothing else: neither by a key that is put there later, nor by one that is moved back. So a key is
retrieved from the URI that it is kept under exactly when no key was ever moved away from there.
-/

namespace FieldCrypt.Broker

namespace State

variable {state next : State} {draws draws' : Draws} {request : Request} {reply : Reply}

/-- No answer moves a key. -/
theorem Answered.migrations (answered : Answered state draws request reply next draws') :
    next.migrations = state.migrations := by
  cases answered with
  | createKeys =>
      obtain ⟨keys, made⟩ := state.exists_keys_createKeys draws request
      rw [made]
  | _ => rfl

theorem migrations_receive (state : State) (draws : Draws) (call : Call) :
    (state.receive draws call).2.1.migrations = state.migrations := by
  rcases state.receive_next_cases draws call with same | same | ⟨reply, rest, answered⟩
  · rw [same]
    rfl
  · rw [same]
    rfl
  · exact answered.migrations

end State

/-- Where a key was last moved to in a course of events, of those that were moved away from a URI. -/
def movedTo? (uri : String) : List Event → Option String
  | [] => none
  | .moveKey source target :: later =>
    (movedTo? uri later).or (if source = uri then some target else none)
  | _ :: later => movedTo? uri later

theorem movedTo?_eq_none_iff {uri : String} {events : List Event} :
    movedTo? uri events = none ↔ ∀ target, .moveKey uri target ∉ events := by
  induction events with
  | nil => simp [movedTo?]
  | cons event later ih =>
      cases event with
      | moveKey source target =>
          rw [movedTo?, Option.or_eq_none_iff, ih]
          by_cases same : source = uri
          · subst same
            refine iff_of_false (fun none => ?_) fun never => never target List.mem_cons_self
            cases none.2.symm.trans (if_pos rfl)
          · simp [same, Ne.symm same]
      | _ => simpa [movedTo?] using ih

/-- The redirects of a broker are the last moves. -/
theorem migrations_course (uri : String) (events : List Event) (state : State) (draws : Draws) :
    (course State.receive events state draws).2.1.migrations.find? uri =
      (movedTo? uri events).or (state.migrations.find? uri) := by
  induction events generalizing state draws with
  | nil => rfl
  | cons event later ih =>
      cases event with
      | moveKey source target =>
          rw [course, ih, State.migrations_moveKey, movedTo?, Option.or_assoc]
          split <;> rfl
      | receive call =>
          have same := ih (state.receive draws call).2.1 (state.receive draws call).2.2
          rw [State.migrations_receive] at same
          exact same
      | addKey uri jwk => exact ih (state.addKey uri jwk) draws
      | prepare outcome => exact ih (state.prepare outcome) draws
      | forgetCalls => exact ih state.forgetCalls draws

open State

/-- A key is retrieved from the URI that it is kept under exactly when no key was ever moved away from
that URI. Otherwise the answer is a redirect to where the last one was moved, whatever happened there
since. -/
theorem stored_key_retrieved_iff {host : String} {events : List Event} {start : Draws} {state : State}
    (came : (course State.receive events { host } start).2.1 = state)
    (unscripted : state.script = []) {uri : KeyUri} (kms : uri.IsKms) {key : KeyEntry}
    (stored : state.keys.find? uri.text = some key) (draws : Draws) (options : Option Options) :
    let outcome := (state.receive draws { request := .retrieve uri.text, options }).1
    (outcome = .ok { Reply.ofKey key with requestId := some state.nextRequestId } ↔
      ∀ target, .moveKey uri.text target ∉ events) ∧
    ∀ target, movedTo? uri.text events = some target →
      outcome = .ok { Reply.failure 301 Failure.keyMigrated "key migrated" with
        redirectUri := some target, requestId := some state.nextRequestId } := by
  have redirects : state.migrations.find? uri.text = movedTo? uri.text events := by
    rw [← came, migrations_course]
    exact Option.or_none
  rw [receive_retrieve kms unscripted, ← movedTo?_eq_none_iff]
  simp only [retrieved, answerRetrieve, redirects]
  cases movedTo? uri.text events with
  | none =>
      refine ⟨⟨fun _ => rfl, fun _ => ?_⟩, fun target moved => ?_⟩
      · rw [stored]
        rfl
      · cases moved
  | some target =>
      refine ⟨⟨fun same => ?_, fun never => ?_⟩, fun other moved => ?_⟩
      · cases congrArg Reply.key (Except.ok.inj same)
      · cases never
      · obtain rfl := Option.some.inj moved
        rfl

/-- A key that was moved is retrieved from its new URI. -/
theorem stored_key_retrieved_moved :
    let events := [
      .addKey "kms://kms/keys/a" (.int 1), .moveKey "kms://kms/keys/a" "kms://kms/keys/b"]
    let start : Draws := { source := fun _ _ => 0 }
    let state := (course State.receive events { host := "kms" } start).2.1
    let key : KeyEntry := { uri := some "kms://kms/keys/b", jwk := .int 1 }
    state.script = [] ∧ KeyUri.IsKms ⟨"kms://kms/keys/b"⟩ ∧
      state.keys.find? "kms://kms/keys/b" = some key ∧
      (state.receive start { request := .retrieve "kms://kms/keys/b", options := none }).1 =
        .ok { Reply.ofKey key with requestId := some state.nextRequestId } := by
  intro events start state key
  have kms : KeyUri.IsKms ⟨"kms://kms/keys/b"⟩ := by rfl
  have stays : ∀ target, .moveKey "kms://kms/keys/b" target ∉ events :=
    movedTo?_eq_none_iff.mp (by decide +kernel)
  have stored : state.keys.find? "kms://kms/keys/b" = some key := rfl
  have came : (course State.receive events { host := "kms" } start).2.1 = state := rfl
  have retrieved := (stored_key_retrieved_iff came rfl kms stored start none).1
  exact ⟨rfl, kms, stored, retrieved.mpr stays⟩

/-- A key that was moved away and back is not retrieved, but redirected to where it no longer is. -/
theorem stored_key_redirected :
    let events := [
      .addKey "kms://kms/keys/a" (.int 1), .moveKey "kms://kms/keys/a" "kms://kms/keys/b",
      .moveKey "kms://kms/keys/b" "kms://kms/keys/a"]
    let start : Draws := { source := fun _ _ => 0 }
    let state := (course State.receive events { host := "kms" } start).2.1
    let outcome :=
      (state.receive start { request := .retrieve "kms://kms/keys/a", options := none }).1
    state.script = [] ∧ KeyUri.IsKms ⟨"kms://kms/keys/a"⟩ ∧
      state.keys.find? "kms://kms/keys/a" =
        some { uri := some "kms://kms/keys/a", jwk := .int 1 } ∧
      outcome = .ok { Reply.failure 301 Failure.keyMigrated "key migrated" with
        redirectUri := some "kms://kms/keys/b", requestId := some state.nextRequestId } := by
  intro events start state outcome
  exact ⟨rfl, by rfl, rfl, rfl⟩

end FieldCrypt.Broker
