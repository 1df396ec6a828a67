import FieldCrypt.Proofs.Broker.Answered
import FieldCrypt.Proofs.Client.Actions
import FieldCrypt.Proofs.Routine.Invariant
import FieldCrypt.Simulation

/-!
# Histories of a broker

Clients are asked for one thing after another, and an unscripted broker that was new at first
answers them. A history lists what was asked for and what it came to. Resolving keys leaves no trace
in the tables of the broker; every other action is a single call, or none at all when an argument is
missing.
-/

namespace FieldCrypt

open Broker Client

/-- What a client was asked for, and what that came to. -/
structure Deed where
  action : Action
  outcome : Except ClientError action.Answer

/-- The histories that lead from a new broker on some host to what is shared. In between keys may be
put into the broker and moved, and whatever leaves the tables of the broker alone may happen. -/
inductive History (host : String) : List Deed → Shared Simulation → Prop where
  | start {shared : Shared Simulation} (new : shared.outside.broker = { host }) :
      History host [] shared
  | act {deeds : List Deed} {shared last : Shared Simulation} (before : History host deeds shared)
      (client : Client) (action : Action) {outcome : Except ClientError action.Answer}
      (ran : Routine.run Simulation.environment.handle (action.perform client) shared =
        some (outcome, last)) :
      History host (deeds ++ [⟨action, outcome⟩]) last
  | keep {deeds : List Deed} {shared : Shared Simulation} (before : History host deeds shared)
      (uri : String) (jwk : Json) :
      History host deeds
        { shared with outside := { shared.outside with
            broker := shared.outside.broker.addKey uri jwk } }
  | move {deeds : List Deed} {shared : Shared Simulation} (before : History host deeds shared)
      (source target : String) :
      History host deeds
        { shared with outside := { shared.outside with
            broker := shared.outside.broker.moveKey source target } }
  | other {deeds : List Deed} {shared after : Shared Simulation}
      (before : History host deeds shared)
      (same : after.outside.broker.tables = shared.outside.broker.tables) : History host deeds after

/-- The effects with which a client resolves keys: requests that only retrieve, and the use of a
cache. -/
def Effect.Looks : (β : Type) → Effect β → Prop
  | _, .send call => call.request.method = .retrieve
  | _, .lookup .. | _, .remember .. => True
  | _, _ => False

namespace Client

theorem fetch_looks (uri : KeyUri) (options : Option Options) :
    (fetch uri options).Only Effect.Looks := by
  have sends (target : String) : (send (.retrieve target) options).Only Effect.Looks :=
    ⟨rfl, fun _ => trivial⟩
  apply (sends uri.text).bind
  intro first
  cases redirect? first with
  | none => trivial
  | some target => exact (sends target).bind fun _ => trivial

theorem resolveKey_looks (client : Client) (uri : KeyUri) (options : Options) :
    (client.resolveKey uri options).Only Effect.Looks := by
  unfold resolveKey
  split
  · trivial
  · split
    · refine ⟨trivial, fun found => ?_⟩
      cases found with
      | some key => trivial
      | none =>
          apply (fetch_looks uri none).bind
          rintro (error | key)
          · trivial
          · exact ⟨trivial, fun _ => trivial⟩
    · exact fetch_looks uri _

end Client

/-- The broker is unscripted, and its tables are these. -/
def Rests (tables : State) (shared : Shared Simulation) : Prop :=
  shared.outside.broker.script = [] ∧ shared.outside.broker.tables = tables

theorem Effect.Looks.rests {tables : State} {β : Type} {effect : Effect β} (looks : effect.Looks)
    {shared : Shared Simulation} (rests : Rests tables shared) :
    ∃ answer next, Simulation.environment.handle β effect shared = some (answer, next) ∧
      Rests tables next := by
  cases effect with
  | send call =>
      refine ⟨_, _, rfl, State.unscripted_receive rests.1 _ call, ?_⟩
      exact (State.tables_receive_retrieve rests.1 _ looks).trans rests.2
  | lookup cache uri => exact ⟨_, _, rfl, rests⟩
  | remember cache requested key => exact ⟨_, _, rfl, rests⟩
  | _ => exact looks.elim

/-- What an action does where the broker is unscripted. -/
inductive Performed (action : Action) (shared : Shared Simulation) :
    Except ClientError action.Answer → Shared Simulation → Prop where
  | lacks {argument : Argument} (lacks : action.request = .error argument) :
      Performed action shared (.error (.missing argument)) shared
  | asks {request : Request} (single : ¬ action.Resolves) (needs : action.request = .ok request) :
      Performed action shared
        (action.conclude
          (shared.outside.broker.receive shared.outside.draws ⟨request, none⟩).1)
        { shared with outside := (Simulation.environment.send ⟨request, none⟩ shared.outside).2 }
  | resolves {outcome : Except ClientError action.Answer} {last : Shared Simulation}
      (resolves : action.Resolves)
      (same : last.outside.broker.tables = shared.outside.broker.tables) :
      Performed action shared outcome last

theorem exists_performed {shared : Shared Simulation}
    (unscripted : shared.outside.broker.script = []) (client : Client) (action : Action) :
    ∃ outcome last, Routine.run Simulation.environment.handle (action.perform client) shared =
      some (outcome, last) ∧ Performed action shared outcome last := by
  by_cases resolves : action.Resolves
  · have keeps : (action.perform client).Keeps Simulation.environment.handle
        (Rests shared.outside.broker.tables) fun _ => True := by
      cases action with
      | resolveKey uri options =>
          apply (client.resolveKey_looks uri options).keeps
          intro β effect looks state rests
          exact looks.rests rests
      | _ => exact resolves.elim
    obtain ⟨outcome, last, ran, rests, -⟩ := keeps.run ⟨unscripted, rfl⟩
    exact ⟨outcome, last, ran, .resolves resolves rests.2⟩
  · rw [Action.perform_eq_once client resolves]
    cases needs : action.request with
    | error argument =>
        exact ⟨_, _, Action.run_once_lacking _ shared needs, .lacks needs⟩
    | ok request =>
        exact ⟨_, _, Action.run_once_asking _ shared needs, .asks resolves needs⟩

theorem Performed.of_run {shared last : Shared Simulation}
    (unscripted : shared.outside.broker.script = []) {client : Client} {action : Action}
    {outcome : Except ClientError action.Answer}
    (ran : Routine.run Simulation.environment.handle (action.perform client) shared =
      some (outcome, last)) : Performed action shared outcome last := by
  obtain ⟨outcome', last', ran', performed⟩ := exists_performed unscripted client action
  obtain ⟨rfl, rfl⟩ := Prod.mk.inj (Option.some.inj (ran'.symm.trans ran))
  exact performed

section Asking

variable {shared : Shared Simulation} (unscripted : shared.outside.broker.script = [])
  (client : Client) {action : Action} (single : ¬ action.Resolves) {request : Request}
  (needs : action.request = .ok request)

include unscripted single needs

/-- An action that is answered reads the answer. -/
theorem run_of_answer_ok {reply : Reply} {next : State} {draws : Draws}
    (answers : (shared.outside.broker.noted ⟨request, none⟩).answer shared.outside.draws request =
      .ok (reply, next, draws)) :
    ∃ last, Routine.run Simulation.environment.handle (action.perform client) shared =
        some (action.read { reply with requestId := some shared.outside.broker.nextRequestId },
          last) ∧
      last.outside.broker = next := by
  let numbered : Reply := { reply with requestId := some shared.outside.broker.nextRequestId }
  have received : shared.outside.broker.receive shared.outside.draws ⟨request, none⟩ =
      (.ok numbered, next, draws) := by
    rw [State.receive_eq unscripted, answers]
  have succeeds : numbered.isFailure = false := (State.answered_of_ok answers).not_failure
  refine ⟨{ shared with outside := { shared.outside with broker := next, draws } }, ?_, rfl⟩
  rw [Action.perform_eq_once client single, Action.run_once_asking _ shared needs]
  simp only [Simulation.environment, received]
  rw [action.conclude_ok succeeds]

/-- An action that is refused fails as the broker says, and changes no table. -/
theorem run_of_answer_error {refusal : Refusal}
    (answers : (shared.outside.broker.noted ⟨request, none⟩).answer shared.outside.draws request =
      .error refusal) :
    ∃ last, Routine.run Simulation.environment.handle (action.perform client) shared =
        some (.error (.broker (.ofReply
          (refusal.reply shared.outside.broker.nextRequestId))), last) ∧
      last.outside.broker.tables = shared.outside.broker.tables := by
  have received : shared.outside.broker.receive shared.outside.draws ⟨request, none⟩ =
      (.error (.broker (.ofReply (refusal.reply shared.outside.broker.nextRequestId))),
        shared.outside.broker.noted ⟨request, none⟩, shared.outside.draws) := by
    rw [State.receive_eq unscripted, answers]
  refine ⟨{ shared with outside := { shared.outside with
    broker := shared.outside.broker.noted ⟨request, none⟩ } }, ?_, State.tables_noted _ _⟩
  rw [Action.perform_eq_once client single, Action.run_once_asking _ shared needs]
  simp only [Simulation.environment, received]
  rfl

end Asking

/-- A broker that nobody gave a script has none. -/
theorem History.unscripted {host : String} {deeds : List Deed} {shared : Shared Simulation}
    (history : History host deeds shared) : shared.outside.broker.script = [] := by
  induction history with
  | start new => rw [new]
  | act before client action ran unscripted =>
      cases Performed.of_run unscripted ran with
      | lacks => exact unscripted
      | asks single needs => exact State.unscripted_receive unscripted _ _
      | resolves resolves same => exact (congrArg State.script same).trans unscripted
  | keep before uri jwk unscripted => exact unscripted
  | move before source target unscripted => exact unscripted
  | other before same unscripted => exact (congrArg State.script same).trans unscripted

/-- A history goes on with an action that is one call. -/
theorem History.ask {host : String} {deeds : List Deed} {shared : Shared Simulation}
    (history : History host deeds shared) (action : Action) (single : ¬ action.Resolves)
    {request : Request} (needs : action.request = .ok request) :
    History host
      (deeds ++ [⟨action,
        action.conclude (Simulation.environment.send ⟨request, none⟩ shared.outside).1⟩])
      { shared with outside := (Simulation.environment.send ⟨request, none⟩ shared.outside).2 } := by
  apply history.act {} action
  rw [Action.perform_eq_once {} single]
  exact Action.run_once_asking _ shared needs

end FieldCrypt
