import FieldCrypt.Context.Binding
import FieldCrypt.Proofs.Broker.Retrieve

/-!
# Having a key created by the broker

An unscripted broker answers the request for one key with a key under a fresh URI on its host, which
is then what a client that binds a context goes on with. The request is the only thing that is logged.
-/

namespace FieldCrypt

open Broker

namespace Client

/-- The request for one key, as the broker gets it. -/
def creation : Call := { request := .createKeys 1, options := none }

/-- The keys that the outcome of a request for new ones holds. -/
def createdKeys (outcome : Except ClientError Reply) : Except ClientError (List KeyMaterial) :=
  match checked outcome with
  | .ok reply => materials reply.keys
  | .error error => .error error

/-- The URI that a context is bound to after that outcome. -/
def createdUri (outcome : Except ClientError Reply) : Except RecordError KeyUri :=
  match createdKeys outcome with
  | .ok (key :: _) => .ok key.uri
  | .ok [] => .error .noUnboundKeys
  | .error error => .error (.client error)

theorem createKeys_eq (count : UInt32) :
    createKeys count = .pause (.call (.send { request := .createKeys count, options := none })
      fun outcome => .done (createdKeys outcome)) := by
  refine congrArg Routine.pause (congrArg (Routine.call _) (funext fun outcome => ?_))
  change (match checked outcome with
    | .ok reply => Routine.done (materials reply.keys)
    | .error error => .done (.error error)) = _
  unfold createdKeys
  generalize checked outcome = reply
  cases reply <;> rfl

theorem createKey_eq :
    createKey = .pause (.call (.send creation) fun outcome => .done (createdUri outcome)) := by
  rw [createKey, createKeys_eq]
  refine congrArg Routine.pause (congrArg (Routine.call _) (funext fun outcome => ?_))
  change (match createdKeys outcome with
    | .ok (key :: _) => .done (.ok key.uri)
    | .ok [] => .done (.error .noUnboundKeys)
    | .error error => .done (.error (.client error)) :
      Routine Effect (Except RecordError KeyUri)) = _
  unfold createdUri
  generalize createdKeys outcome = keys
  rcases keys with error | _ | ⟨key, rest⟩ <;> rfl

theorem createdKeys_eq {reply : Reply} (fine : reply.isFailure = false) :
    createdKeys (.ok reply) = materials reply.keys := by
  simp only [createdKeys, checked, fine, Bool.false_eq_true, if_false]

theorem materials_singleton {key : KeyEntry} {material : KeyMaterial}
    (made : key.material? none = some material) : materials [key] = .ok [material] := by
  rw [materials, List.mapM_cons, made]
  rfl

end Client

namespace Broker.State

/-- The URI of the key that is created next. -/
def nextUri (state : State) (draws : Draws) : KeyUri :=
  ⟨"kms://" ++ state.host ++ "/keys/" ++ (drawId draws).1⟩

theorem nextUri_ne_empty (state : State) (draws : Draws) : (state.nextUri draws).text ≠ "" := by
  simp [nextUri]

/-- The key that is created next, the broker that has it and the request for it in its log, and what
is left of the random bytes. -/
def creates (state : State) (draws : Draws) : KeyEntry × State × Draws :=
  (state.noted Client.creation).makeKey draws

theorem calls_creates (state : State) (draws : Draws) :
    (state.creates draws).2.1.calls = state.calls ++ [Client.creation] := rfl

/-- An unscripted broker creates the key. -/
theorem receive_creation {state : State} (unscripted : state.script = []) (draws : Draws) :
    state.receive draws Client.creation =
      (.ok {
          status := 201
          keys := [(state.creates draws).1]
          requestId := some ("memory-" ++ toString (state.answered + 1)) },
        (state.creates draws).2) := by
  unfold receive
  simp only
  split
  · rename_i found
    cases unscripted.symm.trans found
  · rfl

theorem createdUri_receive {state : State} (unscripted : state.script = []) (draws : Draws) :
    Client.createdUri (state.receive draws Client.creation).1 = .ok (state.nextUri draws) := by
  have named : (!(state.nextUri draws).text.isEmpty) = true := by
    simpa using state.nextUri_ne_empty draws
  have held : (state.creates draws).1.material? none =
      some ⟨state.nextUri draws, (state.creates draws).1.jwk⟩ := by
    have uri : (state.creates draws).1.uri = some (state.nextUri draws).text := rfl
    rw [KeyEntry.material?, KeyEntry.firstNonempty, uri, Option.filter_some, if_pos named]
    rfl
  rw [receive_creation unscripted]
  simp only [Client.createdUri]
  rw [Client.createdKeys_eq rfl, Client.materials_singleton held]

end Broker.State

end FieldCrypt
