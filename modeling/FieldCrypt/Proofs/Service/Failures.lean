import FieldCrypt.Proofs.Client.Refusals
import FieldCrypt.Proofs.Record.Exact
import FieldCrypt.Record.Task
import FieldCrypt.Service

/-!
# The failure that a service reports

An error of a service that seals texts itself is decided by one step: the creation of a key, or the
resolving of a key for the first text that fails, in the order of fields and slots. Of all that is
sent while texts are tried side by side, what is sent for one of them is found under its seat. The
broker failure that the error holds is that of the last request of the deciding step, so it is none
when that request did not fail.
-/

namespace FieldCrypt

open Broker (Call Scripted)

variable {σ R : Type} {environment : Environment σ} {serve : Call → σ → Scripted}
  {notes : Notes Served}

namespace Context

variable {context : ContextId} {create : Routine Effect KeyOutcome}

theorem bindOnce_serially (serially : create.Serially fun _ _ => True) :
    (bindOnce context create).Serially fun _ _ => True := by
  have leaves (outcome : KeyOutcome) : (leave context outcome).Serially fun _ _ => True :=
    ⟨trivial, fun _ => trivial⟩
  rw [bindOnce_eq]
  refine ⟨trivial, fun url => ?_⟩
  cases url with
  | some uri => trivial
  | none =>
      refine ⟨trivial, fun ticket => ⟨trivial, fun _ => ⟨trivial, fun again => ?_⟩⟩⟩
      cases again with
      | some uri => exact leaves (.ok uri)
      | none =>
          refine serially.bind fun outcome => ?_
          cases outcome with
          | ok uri => exact ⟨trivial, fun _ => leaves (.ok uri)⟩
          | error error => exact leaves (.error error)

theorem recounts_leave {outcome ended : KeyOutcome}
    (recounts : environment.Recounts serve (leave context outcome) notes ended) :
    notes = [] ∧ ended = outcome := by
  obtain ⟨_, _, _, _, -, rfl, rfl, rfl⟩ := recounts
  exact ⟨rfl, rfl⟩

/-- Who fails to get the key of a context has failed to create one, and sent nothing besides. -/
theorem recounts_bindOnce_error {error : RecordError}
    (recounts : environment.Recounts serve (bindOnce context create) notes (.error error)) :
    environment.Recounts serve create notes (.error error) := by
  rw [bindOnce_eq] at recounts
  obtain ⟨_, url, _, _, -, rfl, onward⟩ := recounts
  cases url with
  | some uri => cases onward.2
  | none =>
      obtain ⟨_, ticket, _, _, -, rfl, waiting⟩ := onward
      obtain ⟨_, _, _, _, -, rfl, rechecking⟩ := waiting
      obtain ⟨_, again, _, _, -, rfl, onward⟩ := rechecking
      cases again with
      | some uri => cases (recounts_leave onward).2
      | none =>
          obtain ⟨outcome, _, _, rfl, creating, settling⟩ := Routine.recounts_bind onward
          cases outcome with
          | ok uri =>
              obtain ⟨_, _, _, _, -, -, leaving⟩ := settling
              cases (recounts_leave leaving).2
          | error other =>
              obtain ⟨rfl, same⟩ := recounts_leave settling
              rw [same]
              simpa [Effect.served, Notes.own] using creating

end Context

namespace Client

/-- One request for a key was sent and nothing else, and this is the error that came of it. -/
inductive DecidedByCreation (notes : Notes Served) : List Served → RecordError → Prop where
  | intro {served : Scripted} {error : RecordError} (sent : notes = Notes.own [(creation, served)])
      (failed : createdUri served.outcome = .error error) :
      DecidedByCreation notes [(creation, served)] error

theorem DecidedByCreation.failure?_eq {step : List Served} {error : RecordError}
    (decided : DecidedByCreation notes step error) : error.failure? = Served.failure? step := by
  obtain ⟨-, failed⟩ := decided
  exact createdUri_failure? failed

theorem decided_of_createKey (serves : environment.Serves serve) {error : RecordError}
    (recounts : environment.Recounts serve createKey notes (.error error)) :
    ∃ step, DecidedByCreation notes step error := by
  obtain ⟨served, sent, failed⟩ := recounts_createKey serves recounts
  exact ⟨_, .intro sent failed.symm⟩

end Client

theorem SealedText.failure?_of_read {key : KeyMaterial} {ciphertext : String} {error : CryptoError}
    (failed : read key ciphertext = .error error) : error.failure? = none := by
  unfold read at failed
  split at failed
  · cases failed
    rfl
  split at failed
  · cases failed
    rfl
  split at failed
  · cases failed
    rfl
  split at failed
  · cases failed
  · cases failed
    rfl

namespace Provider

/-- What was sent for a text that is tried under the key of a URI, and what it came to: the key was
not resolved, or the text was sealed or opened with it. -/
inductive Tried (uri : KeyUri) (text : String) :
    Direction → List Served → Except CryptoError String → Prop where
  | unresolved {direction : Direction} {cached : Option KeyMaterial} {sent : List Served}
      {error : ClientError}
      (hop : Client.OneHop cached uri {} (sent.map Served.exchange) (.error error)) :
      Tried uri text direction sent (.error (.resolution error))
  | sealed {cached : Option KeyMaterial} {sent : List Served} {key : KeyMaterial}
      (nonce : List UInt8)
      (hop : Client.OneHop cached uri {} (sent.map Served.exchange) (.ok key)) :
      Tried uri text .encrypt sent (.ok (SealedText.write key nonce text))
  | opened {cached : Option KeyMaterial} {sent : List Served} {key : KeyMaterial}
      (hop : Client.OneHop cached uri {} (sent.map Served.exchange) (.ok key)) :
      Tried uri text .decrypt sent (SealedText.read key text)

/-- A text that fails does so with the failure of the last request that was sent for it. -/
theorem Tried.failure?_eq {uri : KeyUri} {text : String} {direction : Direction}
    {sent : List Served} {error : CryptoError}
    (tried : Tried uri text direction sent (.error error)) :
    error.failure? = Served.failure? sent := by
  generalize same : Except.error error = outcome at tried
  cases tried with
  | unresolved hop =>
      cases same
      exact hop.reported?_eq
  | sealed nonce hop => cases same
  | opened hop =>
      rw [SealedText.failure?_of_read same.symm]
      exact hop.reported?_eq

theorem recounts_transform (serves : environment.Serves serve) {client : Client}
    {direction : Direction} {uri : KeyUri} {text : String} {outcome : Except CryptoError String}
    (recounts : environment.Recounts serve
      (transform (.sealing client) direction (.named uri) text) notes outcome) :
    ∃ sent, notes = Notes.own sent ∧ Tried uri text direction sent outcome := by
  obtain ⟨_, _, _, rfl, resolving, onward⟩ := Routine.recounts_bind recounts
  obtain ⟨result, _, _, rfl, asking, ended⟩ := Routine.recounts_bind resolving
  obtain ⟨cached, sent, rfl, hop⟩ := Client.recounts_resolveKey serves asking
  cases result with
  | error error =>
      obtain ⟨rfl, rfl⟩ := ended
      obtain ⟨rfl, rfl⟩ := onward
      exact ⟨sent, by simp, .unresolved hop⟩
  | ok key =>
      obtain ⟨rfl, rfl⟩ := ended
      cases direction with
      | encrypt =>
          obtain ⟨_, nonce, _, _, -, rfl, rfl, rfl⟩ := onward
          exact ⟨sent, by simp [Notes.own], .sealed nonce hop⟩
      | decrypt =>
          obtain ⟨rfl, rfl⟩ := onward
          exact ⟨sent, by simp, .opened hop⟩

end Provider

namespace Layout

/-- The texts of a record were tried side by side, each with requests of its own, and what succeeded
was put back. This is what was sent for the first one that failed, and the error with which it
did. -/
inductive DecidedByText (layout : Layout R) (direction : Direction) (uri : KeyUri)
    (record after : R) (notes : Notes Served) : List Served → RecordError → Prop where
  | intro {calls : List Excerpt} {outcomes : List (Except CryptoError String)} {index : Nat}
      {call : Excerpt} {fault : CryptoError} (lists : layout.Lists record calls)
      (length : outcomes.length = calls.length)
      (tried : ∀ (slot : Nat) call outcome, calls[slot]? = some call →
        outcomes[slot]? = some outcome →
        Provider.Tried uri call.text direction (notes.under (Routine.seat slot)) outcome)
      (ended : after = layout.putBack record (succeeded (calls.zip outcomes)))
      (there : calls[index]? = some call) (failed : outcomes[index]? = some (.error fault))
      (fine : ∀ earlier < index, ∃ text, outcomes[earlier]? = some (.ok text)) :
      DecidedByText layout direction uri record after notes (notes.under (Routine.seat index))
        (.field call.field fault)

theorem DecidedByText.failure?_eq {layout : Layout R} {direction : Direction} {uri : KeyUri}
    {record after : R} {step : List Served} {error : RecordError}
    (decided : layout.DecidedByText direction uri record after notes step error) :
    error.failure? = Served.failure? step := by
  obtain ⟨-, -, tried, -, there, failed, -⟩ := decided
  exact (tried _ _ _ there failed).failure?_eq

theorem decided_of_apply (serves : environment.Serves serve) {client : Client}
    {layout : Layout R} {direction : Direction} {uri : KeyUri} {record after : R}
    {error : RecordError}
    (recounts : environment.Recounts serve
      (layout.apply (Provider.transform (.sealing client)) direction (.named uri) record) notes
      (.error error, after)) :
    ∃ step, layout.DecidedByText direction uri record after notes step error := by
  obtain ⟨outcomes, _, _, rfl, together, rfl, ended⟩ := Routine.recounts_bind recounts
  obtain ⟨length, each⟩ := Routine.recounts_all together
  obtain ⟨failed, restored⟩ := Prod.mk.inj ended
  obtain ⟨index, call, fault, there, fine, rfl⟩ := exists_of_firstFailure failed.symm
  obtain ⟨there, failed⟩ := List.getElem?_zip_eq_some.mp there
  -- Nothing is sent once all texts have been tried.
  rw [List.append_nil]
  refine ⟨_, .intro (lists_takeOut layout record) (length.trans (List.length_map _)) ?_ restored
    there failed ?_⟩
  · intro slot call outcome there came
    obtain ⟨part, own, same⟩ := each slot _ outcome
      ((List.getElem?_map ..).trans (congrArg (Option.map _) there)) came
    obtain ⟨sent, rfl, tried⟩ := Provider.recounts_transform serves own
    rw [← same, Notes.under_own]
    exact tried
  · intro earlier before
    obtain ⟨call, text, before⟩ := fine earlier before
    exact ⟨text, (List.getElem?_zip_eq_some.mp before).2⟩

/-- What was noted before the texts were tried was noted by none of them. -/
theorem DecidedByText.preceded {layout : Layout R} {direction : Direction} {uri : KeyUri}
    {record after : R} {step : List Served} {error : RecordError}
    (decided : layout.DecidedByText direction uri record after notes step error)
    (before : List Served) :
    layout.DecidedByText direction uri record after (Notes.own before ++ notes) step error := by
  have same (slot : Nat) : (Notes.own before ++ notes).under (Routine.seat slot) =
      notes.under (Routine.seat slot) := by
    rw [Notes.under_append, Routine.under_seat_own, List.nil_append]
  obtain ⟨lists, length, tried, ended, there, failed, fine⟩ := decided
  rw [← same]
  refine .intro lists length ?_ ended there failed fine
  intro slot call outcome there came
  rw [same]
  exact tried slot call outcome there came

end Layout

namespace Service

theorem reported_eq_error {α : Type} {result : Except RecordError Unit × α} {error : ServiceError}
    {after : α} (same : reported result = (.error error, after)) :
    ∃ fault, error = .record fault ∧ result = (.error fault, after) := by
  obtain ⟨outcome, _⟩ := result
  cases outcome with
  | ok _ => cases same
  | error fault =>
      cases same
      exact ⟨fault, rfl, rfl⟩

theorem openContext_decided (serves : environment.Serves serve) {service : Service}
    {error : ServiceError}
    (recounts : environment.Recounts serve service.openContext notes (.error error)) :
    ∃ step fault, error = .record fault ∧ Client.DecidedByCreation notes step fault := by
  unfold openContext at recounts
  obtain ⟨_, _, _, rfl, ⟨_, context, _, _, -, rfl, rfl, rfl⟩, onward⟩ :=
    Routine.recounts_bind recounts
  split at onward
  · obtain ⟨outcome, _, _, rfl, priming, ended⟩ := Routine.recounts_bind onward
    cases outcome with
    | ok uri => cases ended.2
    | error fault =>
        obtain ⟨rfl, same⟩ := ended
        obtain ⟨step, decided⟩ := Client.decided_of_createKey serves
          (Client.recounts_createResolvedKey_error (Context.recounts_bindOnce_error priming))
        rw [List.append_nil]
        exact ⟨step, fault, Except.error.inj same, decided⟩
  · cases onward.2

variable [Protected R]

theorem encrypt_decided (serves : environment.Serves serve) {service : Service} {client : Client}
    (seals : service.provider = .sealing client) {context : ContextId} {record after : R}
    {error : ServiceError}
    (recounts : environment.Recounts serve (service.encrypt context record) notes
      (.error error, after)) :
    ∃ step fault, error = .record fault ∧
      (Client.DecidedByCreation notes step fault ∧ after = record ∨
        ∃ uri, Protected.layout.DecidedByText .encrypt uri (Protected.stamp record uri) after notes
          step fault) := by
  obtain ⟨result, _, _, rfl, encrypting, rfl, same⟩ := Routine.recounts_bind recounts
  obtain ⟨fault, rfl, rfl⟩ := reported_eq_error same.symm
  rw [List.append_nil]
  obtain ⟨bound, _, _, rfl, binding, onward⟩ := Routine.recounts_bind encrypting
  cases bound with
  | error other =>
      obtain ⟨rfl, same⟩ := onward
      obtain ⟨failed, rfl⟩ := Prod.mk.inj same
      obtain ⟨step, decided⟩ := Client.decided_of_createKey serves
        (Context.recounts_bindOnce_error binding)
      rw [List.append_nil, Except.error.inj failed]
      exact ⟨step, other, rfl, .inl ⟨decided, rfl⟩⟩
  | ok uri =>
      rw [seals] at onward
      obtain ⟨step, decided⟩ := Layout.decided_of_apply serves onward
      -- The key was bound by the operation itself, so under none of the seats of its texts.
      have alone : (Client.boundKey context).Serially fun _ _ => True :=
        Context.bindOnce_serially (Client.createKey_serially.mono fun _ _ _ => trivial)
      rw [alone.recounts binding]
      exact ⟨step, fault, rfl, .inr ⟨uri, decided.preceded _⟩⟩

theorem decrypt_decided (serves : environment.Serves serve) {service : Service} {client : Client}
    (seals : service.provider = .sealing client) {record after : R} {error : ServiceError}
    (recounts : environment.Recounts serve (service.decrypt record) notes (.error error, after)) :
    ∃ step fault, error = .record fault ∧ ∃ uri, Protected.keyUrl record = some uri ∧
      Protected.layout.DecidedByText .decrypt uri record after notes step fault := by
  obtain ⟨result, _, _, rfl, decrypting, rfl, same⟩ := Routine.recounts_bind recounts
  obtain ⟨fault, rfl, rfl⟩ := reported_eq_error same.symm
  rw [List.append_nil]
  unfold Protected.decrypt Protected.decryptWith at decrypting
  split at decrypting
  · rename_i uri stamped
    rw [seals] at decrypting
    obtain ⟨step, decided⟩ := Layout.decided_of_apply serves decrypting
    exact ⟨step, fault, rfl, uri, (Option.filter_eq_some_iff.mp stamped).1, decided⟩
  · cases decrypting.2

/-- A service seals texts itself, and the broker serves whatever it serves. An operation ends with an
error under any interleaving, and it is noted which part of it sent what. Then one step has decided
the error. Opening a context is decided by the creation of its key. So is encrypting, the record
being left alone, or else it is decided by the first text that fails, as decrypting always is. The
error holds a broker failure exactly when the last request of that step was rejected with a reply,
or was answered without the key that was asked for, or with the status of a failure where a key was
to be created. It is the failure which that very reply reports. -/
theorem failure_decided (serves : environment.Serves serve) {service : Service} {client : Client}
    (seals : service.provider = .sealing client) {shared last : Shared σ} {error : ServiceError} :
    (Routine.NotedEnds environment.handle (Effect.served serve) service.openContext shared notes
        (.error error) last →
      ∃ step fault, error = .record fault ∧ Client.DecidedByCreation notes step fault ∧
        error.failure? = Served.failure? step) ∧
    (∀ context (record after : R),
      Routine.NotedEnds environment.handle (Effect.served serve) (service.encrypt context record)
        shared notes (.error error, after) last →
      ∃ step fault, error = .record fault ∧
        (Client.DecidedByCreation notes step fault ∧ after = record ∨
          ∃ uri, Protected.layout.DecidedByText .encrypt uri (Protected.stamp record uri) after
            notes step fault) ∧
        error.failure? = Served.failure? step) ∧
    (∀ record after : R,
      Routine.NotedEnds environment.handle (Effect.served serve) (service.decrypt record) shared
        notes (.error error, after) last →
      ∃ step fault, error = .record fault ∧
        (∃ uri, Protected.keyUrl record = some uri ∧
          Protected.layout.DecidedByText .decrypt uri record after notes step fault) ∧
        error.failure? = Served.failure? step) := by
  refine ⟨fun ends => ?_, fun context record after ends => ?_, fun record after ends => ?_⟩
  · obtain ⟨step, fault, rfl, decided⟩ := openContext_decided serves ends.recounts
    exact ⟨step, fault, rfl, decided, decided.failure?_eq⟩
  · obtain ⟨step, fault, rfl, decided⟩ := encrypt_decided serves seals ends.recounts
    refine ⟨step, fault, rfl, decided, ?_⟩
    rcases decided with ⟨byCreation, -⟩ | ⟨uri, byText⟩
    · exact byCreation.failure?_eq
    · exact byText.failure?_eq
  · obtain ⟨step, fault, rfl, uri, stamped, decided⟩ := decrypt_decided serves seals ends.recounts
    exact ⟨step, fault, rfl, ⟨uri, stamped, decided⟩, decided.failure?_eq⟩

/-- A broker that rejects the first request, has moved a key, rejects a request again, and has no
key where the first one was moved to. -/
def forgetsKey : Simulation where
  broker := {
    host := "kms"
    script := [
      .failure { status := 403, reason := some "denied" },
      .reply { status := 301, errorCode := some 301002, redirectUri := some "kms://new/keys/1" },
      .failure { status := 500, reason := some "down" },
      .reply { status := 200, reason := some "no such key" }] }
  draws := { source := fun _ _ => 0 }

/-- A context is opened in vain. Then a record is decrypted, the second text of which fails before
the first one does. What is reported is the failure of the first one, after it was sent elsewhere.
-/
theorem failure_decided_second_hop :
    let service : Service := { provider := .sealing {}, config := { primeContexts := true } }
    let task : TaskRequest :=
      { title := some "00", notes := some "00", encryptionKeyUrl := some ⟨"kms://kms/keys/1"⟩ }
    let noted {α : Type} (routine : Routine Effect α) :=
      Routine.NotedEnds Simulation.environment.handle (Effect.served Simulation.serve) routine
    ∃ first opening middle second trying last,
      noted service.openContext { outside := forgetsKey } first
        (.error (.record opening)) middle ∧
      opening.failure? = some ⟨403, 0, "denied", "", none⟩ ∧
      (∃ step, Client.DecidedByCreation first step opening ∧
        opening.failure? = Served.failure? step) ∧
      noted (service.decrypt task) middle second (.error (.record trying), task) last ∧
      trying.failure? = some ⟨200, 0, "no such key", "", none⟩ ∧
      ∃ step,
        Protected.layout.DecidedByText .decrypt ⟨"kms://kms/keys/1"⟩ task task second step trying ∧
        trying.failure? = Served.failure? step := by
  intro service task noted
  let denied : RecordError := .client (.broker ⟨403, 0, "denied", "", none⟩)
  let keyless : RecordError :=
    .field "title" (.resolution (.broker ⟨200, 0, "no such key", "", none⟩))
  let opened := (Routine.round Simulation.environment.handle)^[2]
    (service.openContext, { outside := forgetsKey })
  -- Both texts get ready, then both send, and what is left for the first one takes a third turn.
  let tried := (Routine.round Simulation.environment.handle)^[3] (service.decrypt task, opened.2)
  have openingFails : opened.1.result? = some (.error (.record denied)) := by
    decide +kernel
  have tryingFails : tried.1.result? = some (.error (.record keyless), task) := by
    decide +kernel
  obtain ⟨first, opens⟩ := Routine.steps_iff_noted.mp (Routine.ends_of_rounds openingFails)
  obtain ⟨second, tries⟩ := Routine.steps_iff_noted.mp (Routine.ends_of_rounds tryingFails)
  obtain ⟨opening, -, -⟩ := @failure_decided _ TaskRequest _ _ first _
    Simulation.environment_serves service {} rfl { outside := forgetsKey } opened.2 _
  obtain ⟨-, -, decrypting⟩ := @failure_decided _ TaskRequest _ _ second _
    Simulation.environment_serves service {} rfl opened.2 tried.2 _
  obtain ⟨step, fault, same, byCreation, reported⟩ := opening opens
  cases same
  obtain ⟨step', fault', same', ⟨uri, stamped, byText⟩, reported'⟩ := decrypting task _ tries
  cases same'
  cases stamped
  exact ⟨first, _, opened.2, second, _, tried.2, opens, rfl, ⟨step, byCreation, reported⟩, tries,
    rfl, step', byText, reported'⟩

end Service

end FieldCrypt
