import FieldCrypt.Proofs.Broker.Answered

/-!
# Courses of events

Keys are put into a broker and moved, outcomes are prepared, the log is forgotten, and calls come in.
A course of such events leads from one state of the broker to another and gives the outcomes of the
calls. What every event upholds holds in every state that a new broker comes to.
-/

namespace FieldCrypt.Broker

/-- What can happen to a broker. -/
inductive Event where
  | addKey (uri : String) (jwk : Json)
  | moveKey (source target : String)
  | prepare (outcome : Scripted)
  | forgetCalls
  | receive (call : Call)

/-- A way of dealing with calls. -/
abbrev Desk := State → Draws → Call → Except ClientError Reply × State × Draws

/-- The outcomes of the calls in a course of events, the broker afterwards, and what is left of the
random bytes. -/
def course (desk : Desk) : List Event → State → Draws →
    List (Except ClientError Reply) × State × Draws
  | [], state, draws => ([], state, draws)
  | .addKey uri jwk :: later, state, draws => course desk later (state.addKey uri jwk) draws
  | .moveKey source target :: later, state, draws =>
    course desk later (state.moveKey source target) draws
  | .prepare outcome :: later, state, draws => course desk later (state.prepare outcome) draws
  | .forgetCalls :: later, state, draws => course desk later state.forgetCalls draws
  | .receive call :: later, state, draws =>
    let (outcome, state, draws) := desk state draws call
    let (outcomes, state, draws) := course desk later state draws
    (outcome :: outcomes, state, draws)

theorem course_receive (desk : Desk) (call : Call) (later : List Event) (state : State)
    (draws : Draws) :
    course desk (.receive call :: later) state draws =
      let (outcome, next, rest) := desk state draws call
      (outcome :: (course desk later next rest).1, (course desk later next rest).2) :=
  rfl

/-- What one event leaves of a broker and of the random bytes. -/
def Event.next (event : Event) (state : State) (draws : Draws) : State × Draws :=
  match event with
  | .addKey uri jwk => (state.addKey uri jwk, draws)
  | .moveKey source target => (state.moveKey source target, draws)
  | .prepare outcome => (state.prepare outcome, draws)
  | .forgetCalls => (state.forgetCalls, draws)
  | .receive call => (state.receive draws call).2

theorem course_cons (event : Event) (later : List Event) (state : State) (draws : Draws) :
    (course State.receive (event :: later) state draws).2 =
      (course State.receive later (event.next state draws).1 (event.next state draws).2).2 := by
  cases event <;> rfl

/-- A broker when an event happens to it. -/
structure Moment where
  state : State
  draws : Draws
  event : Event

/-- The events of a course, each with the broker that it happens to. -/
def moments : List Event → State → Draws → List Moment
  | [], _, _ => []
  | event :: later, state, draws =>
    ⟨state, draws, event⟩ :: moments later (event.next state draws).1 (event.next state draws).2

/-- What is asked for at this moment, and the reply, unless the broker refuses. -/
def Moment.answer? (moment : Moment) : Option (Request × Reply) :=
  match moment.event with
  | .receive call =>
    match (moment.state.receive moment.draws call).1 with
    | .ok reply => some (call.request, reply)
    | .error _ => none
  | _ => none

namespace State

variable {state next : State} {draws : Draws} {call : Call}

/-- The states that a new broker on a host comes to. -/
def Reached (host : String) (state : State) : Prop :=
  ∃ events draws, (course State.receive events { host } draws).2.1 = state

/-- The broker with one more call in its log, and without the outcome that the script had for it. -/
def served (state : State) (call : Call) : State :=
  { state with calls := state.calls ++ [call], script := state.script.tail }

/-- A call finds its outcome in the script. -/
theorem receive_scripted {outcome : Scripted} {script : List Scripted}
    (scripted : state.script = outcome :: script) (draws : Draws) (call : Call) :
    state.receive draws call = (outcome.outcome, state.served call, draws) := by
  simp only [receive, served, scripted]
  rfl

/-- The ways in which a broker deals with a call: by its script, or as an unscripted broker does. -/
theorem receive_cases (state : State) (draws : Draws) (call : Call) :
    (∃ outcome : Scripted,
      state.receive draws call = (outcome.outcome, state.served call, draws)) ∨
    state.script = [] ∧ Received state draws call (state.receive draws call) := by
  cases scripted : state.script with
  | nil => exact .inr ⟨rfl, received scripted draws call⟩
  | cons outcome script => exact .inl ⟨outcome, receive_scripted scripted draws call⟩

/-- What a call leaves behind: a broker that logged it, or what an answer makes of that one. -/
theorem receive_next_cases (state : State) (draws : Draws) (call : Call) :
    (state.receive draws call).2.1 = state.served call ∨
      (state.receive draws call).2.1 = state.noted call ∨
      ∃ reply rest, Answered (state.noted call) draws call.request reply
        (state.receive draws call).2.1 rest := by
  rcases state.receive_cases draws call with ⟨outcome, scripted⟩ | ⟨-, received⟩
  · rw [scripted]
    exact .inl rfl
  · generalize state.receive draws call = came at received ⊢
    cases received with
    | answered answered => exact .inr (.inr ⟨_, _, answered⟩)
    | refused => exact .inr (.inl rfl)

/-- A broker has no script as long as no outcome is prepared. -/
theorem script_next (unscripted : state.script = []) {event : Event}
    (plain : ∀ outcome, event ≠ .prepare outcome) (draws : Draws) :
    (event.next state draws).1.script = [] := by
  cases event with
  | prepare outcome => exact (plain outcome rfl).elim
  | receive call => exact unscripted_receive unscripted draws call
  | addKey | moveKey | forgetCalls => exact unscripted

/-- An unscripted broker answers the call of a moment or refuses it. -/
theorem answer?_cases (unscripted : state.script = []) (draws : Draws) (call : Call) :
    (∃ reply rest,
      Answered (state.noted call) draws call.request reply (state.receive draws call).2.1 rest ∧
      (⟨state, draws, .receive call⟩ : Moment).answer? =
        some (call.request, { reply with requestId := some state.nextRequestId })) ∨
    (state.receive draws call).2.1 = state.noted call ∧
      (⟨state, draws, .receive call⟩ : Moment).answer? = none := by
  have came := received unscripted draws call
  unfold Moment.answer?
  simp only
  generalize state.receive draws call = outcome at came ⊢
  cases came with
  | answered answered => exact .inl ⟨_, _, answered, rfl⟩
  | refused => exact .inr ⟨rfl, rfl⟩

/-- Every event leaves the property as it is. -/
structure Upheld (holds : State → Prop) : Prop where
  addKey : ∀ {state}, holds state → ∀ uri jwk, holds (state.addKey uri jwk)
  moveKey : ∀ {state}, holds state → ∀ source target, holds (state.moveKey source target)
  prepare : ∀ {state}, holds state → ∀ outcome, holds (state.prepare outcome)
  forgetCalls : ∀ {state}, holds state → holds state.forgetCalls
  receive : ∀ {state}, holds state → ∀ draws call, holds (state.receive draws call).2.1

namespace Upheld

variable {holds : State → Prop} (upheld : Upheld holds)
include upheld

theorem course (events : List Event) (start : holds state) (draws : Draws) :
    holds (course State.receive events state draws).2.1 := by
  induction events generalizing state draws with
  | nil => exact start
  | cons event later ih =>
      cases event with
      | addKey uri jwk => exact ih (upheld.addKey start uri jwk) draws
      | moveKey source target => exact ih (upheld.moveKey start source target) draws
      | prepare outcome => exact ih (upheld.prepare start outcome) draws
      | forgetCalls => exact ih (upheld.forgetCalls start) draws
      | receive call => exact ih (upheld.receive start draws call) _

/-- What a new broker has and every event upholds, the broker always has. -/
theorem reached {host : String} (new : holds { host }) (reached : state.Reached host) :
    holds state := by
  obtain ⟨events, draws, rfl⟩ := reached
  exact upheld.course events new draws

end Upheld

end State

end FieldCrypt.Broker
