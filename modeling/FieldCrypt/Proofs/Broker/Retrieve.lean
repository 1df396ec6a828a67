import FieldCrypt.Broker.State
import FieldCrypt.Client.Basic

/-!
# Retrieving a key from the broker

A `kms://` URI is none of the broker's endpoints, so an unscripted broker answers a request to
retrieve it with the key kept under it, with a redirect, or with a refusal. Of what it keeps only the
log and the count of requests change.
-/

namespace FieldCrypt

open Broker

/-- The URI begins with the scheme of the broker's own URIs. -/
def KeyUri.IsKms (uri : KeyUri) : Prop := uri.afterScheme?.isSome

namespace KeyUri.IsKms

variable {uri : KeyUri} (kms : uri.IsKms)
include kms

theorem ne_of_plain {text : String} (plain : (⟨text⟩ : KeyUri).afterScheme? = none) :
    uri.text ≠ text := by
  rintro rfl
  rw [IsKms, plain] at kms
  cases kms

theorem isEmpty_eq_false : uri.isEmpty = false := by
  have full : uri.text ≠ "" := kms.ne_of_plain rfl
  simpa [KeyUri.isEmpty] using full

theorem filter_nonempty :
    (some uri.text).filter (fun text => !text.isEmpty) = some uri.text := by
  have named : (!uri.text.isEmpty) = true := by
    rw [← KeyUri.isEmpty, kms.isEmpty_eq_false]
    rfl
  rw [Option.filter_some, if_pos named]

end KeyUri.IsKms

namespace Broker.State

variable {state : State} {uri : KeyUri}

/-- The broker with one more request in its log, answered without the script. -/
def noted (state : State) (call : Call) : State :=
  { state with calls := state.calls ++ [call], answered := state.answered + 1 }

/-- What a request to retrieve a key comes to. -/
def retrieved (state : State) (uri : KeyUri) : Except ClientError Reply :=
  let requestId := "memory-" ++ toString (state.answered + 1)
  match state.answerRetrieve uri.text with
  | .ok reply => .ok { reply with requestId := some requestId }
  | .error refusal => .error (.broker (.ofReply (refusal.reply requestId)))

theorem answer_retrieve (kms : uri.IsKms) (draws : Draws) :
    state.answer draws (.retrieve uri.text) =
      (state.answerRetrieve uri.text).map fun reply => (reply, state, draws) := by
  have authorizations : uri.text ≠ Endpoint.authorizations := kms.ne_of_plain (by decide)
  have masterKeys : uri.text ≠ Endpoint.masterKeys false := kms.ne_of_plain (by decide)
  have awsKeys : uri.text ≠ Endpoint.masterKeys true := kms.ne_of_plain (by decide)
  simp only [answer, Request.retrieve, authorizations, masterKeys, awsKeys, reduceCtorEq, and_false,
    if_false]

theorem receive_retrieve (kms : uri.IsKms) (unscripted : state.script = []) (draws : Draws)
    (options : Option Options) :
    state.receive draws { request := .retrieve uri.text, options } =
      (state.retrieved uri, state.noted { request := .retrieve uri.text, options }, draws) := by
  unfold receive
  simp only
  split
  · rename_i found
    cases unscripted.symm.trans found
  · -- Counting and logging the request changes neither of the tables that the answer is read from.
    simp only [answerNumbered, answer_retrieve kms, retrieved, answerRetrieve]
    cases state.migrations.find? uri.text with
    | some target => rfl
    | none => cases state.keys.find? uri.text <;> rfl

/-- The web key that is kept under a URI, with the URI that the key itself names. -/
def kept? (state : State) (uri : KeyUri) : Option (Option String × Json) :=
  (state.keys.find? uri.text).map fun key => (key.uri, key.jwk)

/-- The broker keeps this web key under the URI, and the key names that URI. -/
abbrev Holds (state : State) (uri : KeyUri) (jwk : Json) : Prop :=
  state.kept? uri = some (some uri.text, jwk)

theorem holds_addKey (state : State) (uri : KeyUri) (jwk : Json) :
    (state.addKey uri.text jwk).Holds uri jwk := by
  rw [Holds, kept?, addKey, Table.find?_insert, if_pos rfl]
  rfl

theorem key_of_holds (kms : uri.IsKms) {jwk : Json} (holds : state.Holds uri jwk)
    (stays : state.migrations.find? uri.text = none) :
    Client.redirect? (state.retrieved uri) = none ∧
      Client.keyOfOutcome uri (state.retrieved uri) = .ok ⟨uri, jwk⟩ := by
  obtain ⟨key, found, same⟩ := Option.map_eq_some_iff.mp holds
  obtain ⟨named, rfl⟩ := Prod.mk.inj same
  have answered : state.answerRetrieve uri.text = .ok (.ofKey key) := by
    simp only [answerRetrieve, stays, found]
  have first (second : Option String) :
      KeyEntry.firstNonempty (some uri.text) second = some uri.text := by
    rw [KeyEntry.firstNonempty, kms.filter_nonempty]
    rfl
  constructor
  · simp only [retrieved, answered]
    rfl
  · simp only [retrieved, answered, Client.keyOfOutcome, Client.keyOf, Reply.ofKey,
      KeyEntry.material?, named, first]
    rfl

theorem redirect_of_moved {target : KeyUri} (kms : target.IsKms)
    (moved : state.migrations.find? uri.text = some target.text) :
    Client.redirect? (state.retrieved uri) = some target.text := by
  have answered : state.answerRetrieve uri.text =
      .ok { Reply.failure 301 Failure.keyMigrated "key migrated" with
        redirectUri := some target.text } := by
    simp only [answerRetrieve, moved]
  simp only [retrieved, answered]
  exact kms.filter_nonempty

@[simp] theorem migrations_moveKey (state : State) (source target uri : String) :
    (state.moveKey source target).migrations.find? uri =
      if source = uri then some target else state.migrations.find? uri :=
  Table.find?_insert _ _ _ _

/-- A key that was moved is kept under the new URI, and nothing under the old one. -/
theorem kept_moveKey {source target : KeyUri} (apart : source ≠ target) {jwk : Json}
    (holds : state.Holds source jwk) :
    (state.moveKey source.text target.text).Holds target jwk ∧
      (state.moveKey source.text target.text).kept? source = none := by
  obtain ⟨key, found, same⟩ := Option.map_eq_some_iff.mp holds
  obtain ⟨-, rfl⟩ := Prod.mk.inj same
  have differ : target.text ≠ source.text := fun same => apart (congrArg KeyUri.mk same.symm)
  simp only [Holds, kept?, moveKey, found, Table.find?_insert, Table.find?_erase]
  rw [if_neg differ]
  simp

/-- Moving a key that is not there moves nothing. -/
theorem keys_moveKey_of_none {source : KeyUri} (missing : state.kept? source = none)
    (target : String) : (state.moveKey source.text target).keys = state.keys := by
  have found : state.keys.find? source.text = none := Option.map_eq_none_iff.mp missing
  simp only [moveKey, found]

end Broker.State

end FieldCrypt
