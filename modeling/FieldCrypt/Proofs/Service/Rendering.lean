import FieldCrypt.Proofs.Broker.Creation
import FieldCrypt.Proofs.Context.Priming
import FieldCrypt.Proofs.Service.Batch
import FieldCrypt.Proofs.Service.Failures

/-!
# How a service shows broker failures

An error that holds a broker failure comes of creating a key, or of resolving one for the text of a
field. The first shows as the failure itself. The second says which field it is about and that a key
was not resolved, and only then shows the failure. Opening contexts is about no field, decrypting
about nothing else, and encrypting about a field as soon as the context has a key.
-/

namespace FieldCrypt

open Broker (Failure)

variable {σ R : Type}

/-- What stands in front of a failure to resolve a key for a field. -/
def preface (name : String) : String :=
  "crypto failure on field \x60" ++ name ++ "\x60: " ++ "key resolution failed: "

/-- The error is none of a field. -/
def RecordError.OfCreation : RecordError → Prop
  | .client _ | .noUnboundKeys => True
  | .field _ _ => False

/-- The error is one of a field of the layout. -/
def RecordError.OfField (layout : Layout R) : RecordError → Prop
  | .client _ | .noUnboundKeys => False
  | .field name _ => name ∈ layout.names

/-- An outcome that is no error, or one with the property. -/
def FailsAs {α : Type} (kind : RecordError → Prop) : Except RecordError α → Prop
  | .ok _ => True
  | .error error => kind error

section Texts

variable {error : RecordError} {failure : Failure}

theorem RecordError.OfCreation.message_eq (kind : error.OfCreation)
    (holds : error.failure? = some failure) : error.message = failure.message := by
  cases error with
  | noUnboundKeys => cases holds
  | field name fault => exact kind.elim
  | client error =>
      cases error with
      | broker other =>
          obtain rfl := Option.some.inj holds
          rfl
      | _ => cases holds

theorem RecordError.OfField.message_eq {layout : Layout R} (kind : error.OfField layout)
    (holds : error.failure? = some failure) :
    ∃ name ∈ layout.names, error.message = preface name ++ failure.message := by
  cases error with
  | noUnboundKeys => exact kind.elim
  | client error => exact kind.elim
  | field name fault =>
      refine ⟨name, kind, ?_⟩
      cases fault with
      | resolution error =>
          cases error with
          | broker other =>
              obtain rfl := Option.some.inj holds
              exact String.append_assoc.symm
          | _ => cases holds
      | _ => cases holds

end Texts

/-- A text with something in front of it is another one. -/
theorem preface_append_ne (name text : String) : preface name ++ text ≠ text := by
  intro same
  have longer := congrArg String.length same
  have full : 0 < (preface name).length := by
    unfold preface
    rw [String.length_append, String.length_append, String.length_append]
    exact Nat.lt_of_lt_of_le (by decide) (Nat.le_add_left _ _)
  rw [String.length_append] at longer
  omega

namespace Client

open RecordError (OfCreation)

theorem createKey_fails : createKey.Gives (FailsAs OfCreation) := by
  rw [createKey_eq]
  intro outcome
  change FailsAs OfCreation (createdUri outcome)
  unfold createdUri
  cases createdKeys outcome with
  | error error => trivial
  | ok keys => cases keys <;> trivial

theorem createResolvedKey_fails (client : Client) :
    client.createResolvedKey.Gives (FailsAs OfCreation) := by
  rw [createResolvedKey_eq]
  refine createKey_fails.bind ?_
  rintro (error | created) fails
  · exact fails
  · exact (Routine.gives_true _).bind fun _ _ => trivial

end Client

/-- Who fails to get the key of a context fails as the creation of it does. -/
theorem Context.bindOnce_fails {kind : RecordError → Prop} {create : Routine Effect KeyOutcome}
    (creates : create.Gives (FailsAs kind)) (context : ContextId) :
    (bindOnce context create).Gives (FailsAs kind) := by
  rw [bindOnce_eq]
  rintro (_ | uri)
  · rintro ticket ⟨⟩ (_ | uri)
    · refine creates.bind ?_
      rintro (error | uri) fails
      · exact fun _ => fails
      · exact fun _ _ => trivial
    · exact fun _ => trivial
  · trivial

theorem Layout.apply_fails (transform : Transform) (direction : Direction) (key : KeyHandle)
    (layout : Layout R) (record : R) :
    (layout.apply transform direction key record).Gives fun ended =>
      FailsAs (RecordError.OfField layout) ended.1 := by
  refine (Routine.gives_true _).bind fun outcomes _ => ?_
  change FailsAs _ (firstFailure ((layout.takeOut record).zip outcomes))
  cases failed : firstFailure ((layout.takeOut record).zip outcomes) with
  | ok _ => trivial
  | error error =>
      obtain ⟨index, call, fault, there, -, rfl⟩ := exists_of_firstFailure failed
      have taken := List.mem_of_getElem? (List.getElem?_zip_eq_some.mp there).1
      have named := (((lists_takeOut layout record).mem call).mp taken).1
      rw [← List.getElem?_map] at named
      exact List.mem_of_getElem? named

namespace Protected

open RecordError (OfCreation OfField)

variable [Protected R]

theorem encrypt_fails (transform : Transform) (context : ContextId) (record : R) :
    (encrypt transform context record).Gives fun ended =>
      FailsAs OfCreation ended.1 ∧ ended.2 = record ∨
        FailsAs (OfField (layout : Layout R)) ended.1 := by
  refine (Context.bindOnce_fails Client.createKey_fails context).bind ?_
  rintro (error | uri) fails
  · exact .inl ⟨fails, rfl⟩
  · exact (layout.apply_fails transform .encrypt (.named uri) _).mono fun _ => .inr

theorem decrypt_fails (transform : Transform) (record : R) :
    (decrypt transform record).Gives fun ended =>
      FailsAs (OfField (layout : Layout R)) ended.1 := by
  unfold decrypt decryptWith
  split
  · exact layout.apply_fails transform .decrypt _ record
  · trivial

omit [Protected R] in
theorem combined_fails {kind : RecordError → Prop} {results : List (Except RecordError Unit × R)}
    (fails : ∀ result ∈ results, FailsAs kind result.1) : FailsAs kind (combined results) := by
  induction results with
  | nil => trivial
  | cons first rest ih =>
      obtain ⟨head, others⟩ := List.forall_mem_cons.mp fails
      rw [combined_cons]
      cases outcome : first.1 with
      | ok _ => exact ih others
      | error error =>
          rw [outcome] at head
          exact head

theorem decryptAll_fails (transform : Transform) (records : List R) :
    (decryptAll transform records).Gives fun ended =>
      FailsAs (OfField (layout : Layout R)) ended.1 := by
  have each : ∀ routine ∈ records.map (decrypt transform), routine.Gives fun ended =>
      FailsAs (OfField (layout : Layout R)) ended.1 := by
    intro routine there
    obtain ⟨record, -, rfl⟩ := List.mem_map.mp there
    exact decrypt_fails transform record
  exact (Routine.Gives.all each).bind fun _ fails => combined_fails fails

end Protected

namespace Service

open RecordError (OfCreation OfField)

/-- The text of an error says which of these fields it is about before it shows the failure, so that
it is not the text of the failure. -/
def ShownBehind (names : List String) (failure : Failure) (text : String) : Prop :=
  (∃ name ∈ names, text = preface name ++ failure.message) ∧ text ≠ failure.message

section Shown

variable {error : RecordError} {failure : Failure}

theorem shownBehind_of_field {layout : Layout R} (kind : error.OfField layout)
    (holds : error.failure? = some failure) :
    ShownBehind layout.names failure error.message := by
  obtain ⟨name, there, same⟩ := kind.message_eq holds
  refine ⟨⟨name, there, same⟩, ?_⟩
  rw [same]
  exact preface_append_ne name failure.message

end Shown

theorem openContext_fails (service : Service) :
    service.openContext.Gives fun outcome =>
      ∀ error, outcome = .error error → ∃ fault, error = .record fault ∧ fault.OfCreation := by
  unfold openContext
  refine (Routine.gives_true _).bind fun context _ => ?_
  split
  · refine (Context.bindOnce_fails service.client.createResolvedKey_fails context).bind ?_
    rintro (fault | uri) fails
    · rintro _ ⟨⟩
      exact ⟨fault, rfl, fails⟩
    · exact nofun
  · exact nofun

/-- An error that is reported of records has been one of theirs. -/
theorem reported_gives {α : Type} {routine : Routine Effect (Except RecordError Unit × α)}
    {post : Except RecordError Unit × α → Prop} (gives : routine.Gives post) :
    (routine >>= fun result => Routine.done (reported result)).Gives fun ended =>
      ∀ error after, ended = (.error error, after) →
        ∃ fault, error = .record fault ∧ post (.error fault, after) := by
  refine gives.bind ?_
  rintro result holds error after same
  obtain ⟨fault, rfl, rfl⟩ := reported_eq_error same
  exact ⟨fault, rfl, holds⟩

variable [Protected R]

/-- An operation of a service ends with an error that holds a broker failure, whoever seals the
texts, whatever is answered and whatever goes on besides. Where the failure is one to create a key,
its four lines are the text of the error: so in opening a context, and in encrypting a record that
is left alone. Otherwise it is one to resolve a key for some field, and its lines stand behind words
about that: so in decrypting always, whether one record or several, and in encrypting once the
context has a key. -/
theorem failure_shown {environment : Environment σ} (service : Service) {shared last : Shared σ}
    {error : ServiceError} {failure : Failure} (holds : error.failure? = some failure) :
    let ends {α : Type} (routine : Routine Effect α) (ended : α) :=
      Routine.Ends environment.handle routine shared ended last
    let names := (Protected.layout : Layout R).names
    (ends service.openContext (.error error) → error.message = failure.message) ∧
    (∀ context (record after : R), ends (service.encrypt context record) (.error error, after) →
      error.message = failure.message ∧ after = record ∨
        ShownBehind names failure error.message) ∧
    (∀ record after : R, ends (service.decrypt record) (.error error, after) →
      ShownBehind names failure error.message) ∧
    ∀ records after : List R, ends (service.decryptAll records) (.error error, after) →
      ShownBehind names failure error.message := by
  intro ends names
  refine ⟨fun opens => ?_, fun context record after encrypts => ?_, fun record after decrypts => ?_,
    fun records after decrypts => ?_⟩
  · obtain ⟨fault, rfl, kind⟩ := service.openContext_fails.of_ends opens error rfl
    exact kind.message_eq holds
  · obtain ⟨fault, rfl, ⟨kind, alone⟩ | kind⟩ :=
      (reported_gives (Protected.encrypt_fails _ _ _)).of_ends encrypts error after rfl
    · exact .inl ⟨RecordError.OfCreation.message_eq kind holds, alone⟩
    · exact .inr (shownBehind_of_field kind holds)
  · obtain ⟨fault, rfl, kind⟩ :=
      (reported_gives (Protected.decrypt_fails _ _)).of_ends decrypts error after rfl
    exact shownBehind_of_field kind holds
  · obtain ⟨fault, rfl, kind⟩ :=
      (reported_gives (Protected.decryptAll_fails _ _)).of_ends decrypts error after rfl
    exact shownBehind_of_field kind holds

/-- A broker rejects the request for the key of a new context. The key of another context is one that
it does not have, so that a record can not be encrypted there. -/
theorem failure_shown_lost_key :
    let service : Service := { provider := .sealing {}, config := { primeContexts := true } }
    let shared : Shared Simulation := {
      outside := {
        broker := { host := "kms", script := [.failure { status := 503, reason := some "down" }] }
        draws := { source := fun _ _ => 0 } }
      contexts := ⟨[{ keyUrl := some ⟨"kms://kms/keys/a"⟩ }]⟩ }
    let ends {α : Type} (routine : Routine Effect α) :=
      Routine.Ends Simulation.environment.handle routine
    let task : TaskRequest := { title := some "x" }
    ∃ opening middle sealing last,
      ends service.openContext shared (.error opening) middle ∧
      opening.message = (⟨503, 0, "down", "", none⟩ : Failure).message ∧
      ends (service.encrypt 0 task) middle
        (.error sealing, { task with encryptionKeyUrl := some ⟨"kms://kms/keys/a"⟩ }) last ∧
      ShownBehind (Protected.layout : Layout TaskRequest).names
        ⟨404, 404001, "key not found", "memory-1", none⟩ sealing.message := by
  intro service shared ends task
  let down : Failure := ⟨503, 0, "down", "", none⟩
  let lost : Failure := ⟨404, 404001, "key not found", "memory-1", none⟩
  let opening : ServiceError := .record (.client (.broker down))
  let sealing : ServiceError := .record (.field "title" (.resolution (.broker lost)))
  let opened := (Routine.round Simulation.environment.handle)^[2] (service.openContext, shared)
  let sealed := (Routine.round Simulation.environment.handle)^[2] (service.encrypt 0 task, opened.2)
  have openingFails : opened.1.result? = some (.error opening) := by decide +kernel
  have sealingFails : sealed.1.result? =
      some (.error sealing, { task with encryptionKeyUrl := some ⟨"kms://kms/keys/a"⟩ }) := by
    decide +kernel
  have holdsDown : opening.failure? = some down := rfl
  have holdsLost : sealing.failure? = some lost := rfl
  obtain ⟨shown, -⟩ := failure_shown (R := TaskRequest) service holdsDown
  have opens := Routine.ends_of_rounds openingFails
  have seals := Routine.ends_of_rounds sealingFails
  refine ⟨opening, opened.2, sealing, sealed.2, opens, shown opens, seals, ?_⟩
  obtain ⟨-, encrypts, -⟩ := failure_shown (R := TaskRequest) service holdsLost
  rcases encrypts 0 task _ seals with ⟨-, same⟩ | behind
  · exact absurd same (by decide)
  · exact behind

/-- What a service reports of a record whose key is not there is not the text of the failure. -/
theorem failure_hidden :
    let service : Service := { provider := .sealing {} }
    let shared : Shared Simulation :=
      { outside := { broker := { host := "kms" }, draws := { source := fun _ _ => 0 } } }
    let task : TaskRequest :=
      { title := some "00", encryptionKeyUrl := some ⟨"kms://kms/keys/a"⟩ }
    ∃ error failure last,
      Routine.Ends Simulation.environment.handle (service.decrypt task) shared (.error error, task)
        last ∧
      error.failure? = some failure ∧ error.message ≠ failure.message := by
  intro service shared task
  let tried := (Routine.round Simulation.environment.handle)^[2] (service.decrypt task, shared)
  let failure : Failure := ⟨404, 404001, "key not found", "memory-1", none⟩
  have fails : tried.1.result? =
      some (.error (.record (.field "title" (.resolution (.broker failure)))), task) := by
    decide +kernel
  exact ⟨_, failure, tried.2, Routine.ends_of_rounds fails, rfl, by decide +kernel⟩

end Service

end FieldCrypt
