import FieldCrypt.Proofs.Broker.Answered
import FieldCrypt.Proofs.Broker.Creation
import FieldCrypt.Proofs.Client.Exchanges
import FieldCrypt.Proofs.Context.Priming

/-!
# Replies that make requests fail

The broker serves a reply, rejects a request with one, or cannot be reached. `Scripted.refusal?`
says which of these let a request fail and with what reply: a rejection, a reply without the key
that was asked for, a reply to anything else that has the status of a failure. Whether a client
creates a key or resolves one, the broker failure that its error holds is the one that the last
reply reports, and it holds none when the last request did not fail or there was none.
-/

namespace FieldCrypt

open Broker

/-- The reply by which a request failed. -/
def Broker.Scripted.refusal? (request : Request) : Scripted → Option Reply
  | .reply answer =>
    let fails := match request.method with
      | .retrieve => answer.key.isNone
      | .create | .update | .delete => answer.isFailure
    if fails then some answer else none
  | .failure answer => some answer
  | .unreachable _ => none

/-- A request and what the broker served for it. -/
abbrev Served := Call × Scripted

namespace Served

/-- What the client gets to see. -/
def exchange (served : Served) : Exchange := (served.1, served.2.outcome)

/-- The failure that the last of some requests came to. -/
def failure? (sent : List Served) : Option Failure :=
  (sent.getLast?.bind fun last => last.2.refusal? last.1.request).map .ofReply

end Served

/-- The broker serves this. -/
def Environment.Serves {σ : Type} (environment : Environment σ) (serve : Call → σ → Scripted) :
    Prop :=
  ∀ call outside, (environment.send call outside).1 = (serve call outside).outcome

/-- The request and what is served for it, if the effect is a request. -/
def Effect.served {σ : Type} (serve : Call → σ → Scripted) :
    (β : Type) → Effect β → Shared σ → List Served
  | _, .send call, shared => [(call, serve call shared.outside)]
  | _, _, _ => []

/-- The routine may send this, be served this for it, and come to this result, whatever happens
around it. -/
abbrev Environment.Recounts {σ α : Type} (environment : Environment σ) (serve : Call → σ → Scripted)
    (routine : Routine Effect α) (notes : Notes Served) (result : α) : Prop :=
  routine.Recounts environment.handle (Effect.served serve) notes result

/-- What the broker serves next: what is in the script, or else its answer, a refusal being a
rejection. -/
def Broker.State.serve (state : State) (draws : Draws) (call : Call) : Scripted :=
  match state.script with
  | outcome :: _ => outcome
  | [] =>
    match (state.noted call).answer draws call.request with
    | .ok (reply, _, _) => .reply { reply with requestId := some state.nextRequestId }
    | .error refusal => .failure (refusal.reply state.nextRequestId)

/-- What the simulated broker serves next. -/
def Simulation.serve (call : Call) (outside : Simulation) : Scripted :=
  outside.broker.serve outside.draws call

theorem Simulation.environment_serves : Simulation.environment.Serves Simulation.serve := by
  intro call outside
  change (outside.broker.receive outside.draws call).1 = _
  cases scripted : outside.broker.script with
  | cons outcome script => simp only [State.receive, Simulation.serve, State.serve, scripted]
  | nil =>
      rw [State.receive_eq scripted]
      simp only [Simulation.serve, State.serve, scripted]
      cases (outside.broker.noted call).answer outside.draws call.request with
      | ok answered => rfl
      | error refusal => rfl

/-- The broker failure behind an outcome. -/
def ClientError.reported? {α : Type} : Except ClientError α → Option Failure
  | .ok _ => none
  | .error error => error.failure?

namespace Client

open ClientError (reported?)

theorem Final.reported?_eq {asked : String} {served : Scripted}
    {result : Except ClientError KeyMaterial} (final : Final asked served.outcome result) :
    reported? result = (served.refusal? (.retrieve asked)).map .ofReply := by
  cases served with
  | reply reply =>
      cases final with
      | keyless none =>
          simp [Scripted.refusal?, Request.retrieve, none, reported?, ClientError.failure?]
      | key found first => simp [Scripted.refusal?, Request.retrieve, found, reported?]
  | failure reply =>
      cases final
      rfl
  | unreachable detail =>
      cases final
      rfl

theorem Asked.reported?_eq {uri : String} {options : Option Options} {sent : List Served}
    {result : Except ClientError KeyMaterial}
    (asked : Asked uri options (sent.map Served.exchange) result) :
    reported? result = Served.failure? sent := by
  generalize seen : sent.map Served.exchange = exchanges at asked
  cases asked with
  | once stays final =>
      obtain ⟨⟨call, served⟩, rfl, same⟩ := List.map_eq_singleton_iff.mp seen
      cases same
      exact final.reported?_eq
  | twice moved final =>
      obtain ⟨first, _, rfl, -, rest⟩ := List.map_eq_cons_iff.mp seen
      obtain ⟨⟨call, served⟩, rfl, same⟩ := List.map_eq_singleton_iff.mp rest
      cases same
      exact final.reported?_eq

/-- What resolving a URI comes to holds the failure of the last request that it took. -/
theorem OneHop.reported?_eq {cached : Option KeyMaterial} {uri : KeyUri} {options : Options}
    {sent : List Served} {result : Except ClientError KeyMaterial}
    (hop : OneHop cached uri options (sent.map Served.exchange) result) :
    reported? result = Served.failure? sent := by
  generalize seen : sent.map Served.exchange = exchanges at hop
  cases hop with
  | missing empty name =>
      rw [List.map_eq_nil_iff.mp seen]
      rfl
  | hit named alone found =>
      rw [List.map_eq_nil_iff.mp seen]
      rfl
  | asked named missed asked =>
      subst seen
      exact asked.reported?_eq

theorem materials_error {keys : List KeyEntry} {error : ClientError}
    (failed : materials keys = .error error) : error = .key .missingUri := by
  induction keys with
  | nil => cases failed
  | cons key rest ih =>
      rw [materials, List.mapM_cons, ← materials] at failed
      cases made : key.material? none with
      | none =>
          rw [made] at failed
          cases failed
          rfl
      | some material =>
          rw [made] at failed
          cases others : materials rest with
          | error other =>
              rw [others] at failed
              cases failed
              exact ih others
          | ok later =>
              rw [others] at failed
              cases failed

/-- An error in creating a key holds the failure of the request for it. -/
theorem createdUri_failure? {served : Scripted} {error : RecordError}
    (failed : createdUri served.outcome = .error error) :
    error.failure? = (served.refusal? creation.request).map .ofReply := by
  cases served with
  | failure reply =>
      cases failed
      rfl
  | unreachable detail =>
      cases failed
      rfl
  | reply reply =>
      change createdUri (.ok reply) = _ at failed
      cases fails : reply.isFailure with
      | true =>
          simp only [createdUri, createdKeys, checked, fails, if_true] at failed
          cases failed
          simp [Scripted.refusal?, creation, Request.createKeys, fails, RecordError.failure?,
            ClientError.failure?]
      | false =>
          have fine : Scripted.refusal? creation.request (.reply reply) = none := by
            simp [Scripted.refusal?, creation, Request.createKeys, fails]
          rw [fine, createdUri, createdKeys_eq fails] at *
          cases made : materials reply.keys with
          | error other =>
              obtain rfl := materials_error made
              rw [made] at failed
              cases failed
              rfl
          | ok keys =>
              rw [made] at failed
              cases keys with
              | nil =>
                  cases failed
                  rfl
              | cons key rest => cases failed

variable {σ : Type} {environment : Environment σ} {serve : Call → σ → Scripted}
  {notes : Notes Served}

/-- A key that cannot be resolved can still be created. -/
theorem recounts_createResolvedKey_error {client : Client} {error : RecordError}
    (recounts : environment.Recounts serve client.createResolvedKey notes (.error error)) :
    environment.Recounts serve createKey notes (.error error) := by
  rw [createResolvedKey_eq] at recounts
  obtain ⟨created, first, _, rfl, creating, onward⟩ := Routine.recounts_bind recounts
  cases created with
  | error other =>
      obtain ⟨rfl, same⟩ := onward
      rw [List.append_nil, same]
      exact creating
  | ok uri =>
      obtain ⟨_, _, _, rfl, -, -, absurd⟩ := Routine.recounts_bind onward
      cases absurd

variable (serves : environment.Serves serve)
include serves

theorem exchanged_of_serves {β : Type} (effect : Effect β) (shared : Shared σ) :
    environment.exchanged _ effect shared =
      (Effect.served serve _ effect shared).map Served.exchange := by
  cases effect with
  | send call => exact congrArg (fun outcome => [(call, outcome)]) (serves call shared.outside)
  | _ => rfl

theorem recounts_resolveKey {client : Client} {uri : KeyUri} {options : Options}
    {result : Except ClientError KeyMaterial}
    (recounts : environment.Recounts serve (client.resolveKey uri options) notes result) :
    ∃ cached sent, notes = Notes.own sent ∧
      OneHop cached uri options (sent.map Served.exchange) result := by
  have told := Routine.Recounts.retell (fun _ => exchanged_of_serves serves) recounts
  obtain ⟨cached, exchanges, same, hop⟩ := exchanges_resolveKey told
  obtain ⟨sent, rfl, rfl⟩ := Notes.eq_own_of_retell same
  exact ⟨cached, sent, rfl, hop⟩

theorem recounts_createKey {outcome : Except RecordError KeyUri}
    (recounts : environment.Recounts serve createKey notes outcome) :
    ∃ served : Scripted, notes = Notes.own [(creation, served)] ∧
      outcome = createdUri served.outcome := by
  rw [createKey_eq] at recounts
  obtain ⟨shared, answer, next, later, handled, rfl, rfl, rfl⟩ := recounts
  obtain ⟨rfl, -⟩ := Prod.mk.inj (Option.some.inj handled)
  exact ⟨_, rfl, congrArg createdUri (serves _ shared.outside)⟩

end Client

end FieldCrypt
