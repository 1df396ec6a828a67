import FieldCrypt.Proofs.Context.Stage
import FieldCrypt.Proofs.Routine.Crowd
import FieldCrypt.Simulation
import Mathlib.Logic.Function.Basic

/-!
# One key for each context

Any number of callers want the key of one context, some on first use and some ahead of it. The
invariant `Orderly` gives each of them a ticket of its own or none, so that one caller at most
stands between the guard's admission and its release. In the end this means that the URL is set
once, by the only attempt that does not end in an error.
-/

namespace FieldCrypt.Context

variable {σ : Type}

/-- A caller that wants the key of a context: on first use, or ahead of it through a client. -/
inductive Seeker where
  | lazy
  | priming (client : Client)

/-- What a caller does to get the key. -/
def Seeker.seek (context : ContextId) : Seeker → Routine Effect KeyOutcome
  | lazy => Client.boundKey context
  | priming client => client.prime context

/-- Callers that want the key of the same context, and all that they share. -/
abbrev Seekers (σ : Type) := Crowd Seeker Effect KeyOutcome (Shared σ)

/-- Whatever else goes on leaves the context alone. -/
def Untouched (context : ContextId) (before after : Shared σ) : Prop :=
  after.context context = before.context context

/-- One step of the callers of a context. -/
abbrev SeekStep (environment : Environment σ) (context : ContextId) :
    Seekers σ → Seekers σ → Prop :=
  Crowd.Step environment.handle (Seeker.seek context) (Untouched context)

/-- Any number of such steps. -/
abbrev SeekReaches (environment : Environment σ) (context : ContextId) :
    Seekers σ → Seekers σ → Prop :=
  Crowd.Reaches environment.handle (Seeker.seek context) (Untouched context)

/-- The URL that the context is bound to. -/
abbrev boundUrl (context : ContextId) (crowd : Seekers σ) : Option KeyUri :=
  (crowd.state.context context).keyUrl

/-- The attempt of a caller is in flight: the next thing it does is to send a request, to use a
cache, or to bind the context. -/
def Attempting (crowd : Seekers σ) (index : Nat) : Prop :=
  ∃ purpose routine, crowd.callers[index]? = some (purpose, routine) ∧ routine.Wants OfAttempt

/-- The caller's request is the next thing that the broker gets from it. -/
def Sending (crowd : Seekers σ) (index : Nat) (call : Broker.Call) : Prop :=
  ∃ purpose rest, crowd.callers[index]? = some (purpose, .call (.send call) rest)

/-- Whatever happens, the caller ends with this outcome. -/
def Comes (crowd : Seekers σ) (index : Nat) (outcome : KeyOutcome) : Prop :=
  ∃ purpose routine, crowd.callers[index]? = some (purpose, routine) ∧ routine.Yields outcome

theorem Seeker.stage {context : ContextId} {url : Option KeyUri} {serving : Nat}
    (seeker : Seeker) : Stage context url serving none (seeker.seek context) := by
  cases seeker with
  | lazy => exact .outside Client.createKey_serially.only
  | priming client => exact .outside client.createResolvedKey_serially.only

variable {environment : Environment σ} {context : ContextId} {crowd later : Seekers σ}

/-- Everybody stands at some stage, and nobody has the ticket of another. -/
structure Orderly (context : ContextId) (crowd : Seekers σ) (tickets : Nat → Option Nat) :
    Prop where
  served : (crowd.state.context context).guard.serving ≤ (crowd.state.context context).guard.issued
  stage : ∀ index purpose routine, crowd.callers[index]? = some (purpose, routine) →
    Stage context (boundUrl context crowd) (crowd.state.context context).guard.serving
      (tickets index) routine
  issued : ∀ index ticket, tickets index = some ticket →
    ticket < (crowd.state.context context).guard.issued
  apart : ∀ i j ticket, tickets i = some ticket → tickets j = some ticket → i = j

theorem Orderly.start (nobody : crowd.callers = [])
    (free : (crowd.state.context context).guard.isFree = true) :
    Orderly context crowd fun _ => none where
  served := by
    simp only [Guard.isFree, decide_eq_true_eq] at free
    exact Nat.le_of_eq free.symm
  stage index purpose routine found := by
    rw [nobody] at found
    cases found
  issued _ _ none := by cases none
  apart _ _ _ none := by cases none

/-- A caller that comes has no ticket. -/
theorem Orderly.come {tickets : Nat → Option Nat} (orderly : Orderly context crowd tickets)
    (seeker : Seeker) :
    Orderly context { crowd with callers := crowd.callers ++ [(seeker, seeker.seek context)] }
      (Function.update tickets crowd.callers.length none) where
  served := orderly.served
  stage index purpose routine found := by
    rcases Crowd.caller_come found with before | ⟨here, new⟩
    · have bound := (List.getElem?_eq_some_iff.mp before).1
      rw [Function.update_of_ne (Nat.ne_of_lt bound)]
      exact orderly.stage index purpose routine before
    · obtain ⟨rfl, rfl⟩ := Prod.mk.inj new
      rw [here, Function.update_self]
      exact purpose.stage
  issued index ticket holds := by
    by_cases here : index = crowd.callers.length
    · rw [here, Function.update_self] at holds
      cases holds
    · rw [Function.update_of_ne here] at holds
      exact orderly.issued index ticket holds
  apart i j ticket holdsI holdsJ := by
    have old (index : Nat)
        (holds : Function.update tickets crowd.callers.length none index = some ticket) :
        tickets index = some ticket := by
      by_cases here : index = crowd.callers.length
      · rw [here, Function.update_self] at holds
        cases holds
      · rwa [Function.update_of_ne here] at holds
    exact orderly.apart i j ticket (old i holdsI) (old j holdsJ)

/-- A caller that makes a step keeps its ticket, draws one, or gives it back. -/
theorem Orderly.move {tickets : Nat → Option Nat} (orderly : Orderly context crowd tickets)
    {index : Nat} {purpose : Seeker} {routine routine' : Routine Effect KeyOutcome}
    {state : Shared σ} {ticket' : Option Nat}
    (found : crowd.callers[index]? = some (purpose, routine))
    (change : Change routine routine' (crowd.state.context context) (state.context context)
      (tickets index) ticket')
    (stage : Stage context (state.context context).keyUrl (state.context context).guard.serving
      ticket' routine') :
    Orderly context ⟨crowd.callers.set index (purpose, routine'), state⟩
      (Function.update tickets index ticket') where
  served := change.served orderly.served (orderly.issued index)
  stage other purpose' routine'' foundOther := by
    rcases Crowd.caller_move foundOther with ⟨rfl, new⟩ | ⟨differ, before⟩
    · obtain ⟨-, rfl⟩ := Prod.mk.inj new
      rw [Function.update_self]
      exact stage
    · rw [Function.update_of_ne differ]
      apply (orderly.stage other purpose' routine'' before).other change
      intro ticket mine theirs
      exact differ (orderly.apart other index ticket theirs mine)
  issued other ticket holds := by
    by_cases here : other = index
    · rw [here, Function.update_self] at holds
      rcases change.ticket_cases holds with old | ⟨drawn, next⟩
      · exact Nat.lt_of_lt_of_le (orderly.issued index ticket old) change.issued_le
      · simp only
        omega
    · rw [Function.update_of_ne here] at holds
      exact Nat.lt_of_lt_of_le (orderly.issued other ticket holds) change.issued_le
  apart i j ticket holdsI holdsJ := by
    -- The caller that moved has its old ticket, or one that nobody had.
    have mover (other : Nat) (ne : other ≠ index) (mine : ticket' = some ticket)
        (theirs : tickets other = some ticket) : False := by
      rcases change.ticket_cases mine with old | ⟨drawn, -⟩
      · exact ne (orderly.apart other index ticket theirs old)
      · have bound := orderly.issued other ticket theirs
        omega
    by_cases hi : i = index <;> by_cases hj : j = index
    · rw [hi, hj]
    · rw [hi, Function.update_self] at holdsI
      rw [Function.update_of_ne hj] at holdsJ
      exact (mover j hj holdsI holdsJ).elim
    · rw [Function.update_of_ne hi] at holdsI
      rw [hj, Function.update_self] at holdsJ
      exact (mover i hi holdsJ holdsI).elim
    · rw [Function.update_of_ne hi] at holdsI
      rw [Function.update_of_ne hj] at holdsJ
      exact orderly.apart i j ticket holdsI holdsJ

theorem Orderly.step {tickets : Nat → Option Nat} (orderly : Orderly context crowd tickets)
    (step : SeekStep environment context crowd later) :
    ∃ tickets', Orderly context later tickets' := by
  cases step with
  | come seeker => exact ⟨_, orderly.come seeker⟩
  | move found inner =>
      obtain ⟨ticket', change, stage⟩ := (orderly.stage _ _ _ found).step orderly.served inner
      exact ⟨_, orderly.move found change stage⟩
  | change untouched =>
      refine ⟨tickets, ?_, ?_, ?_, orderly.apart⟩
      · rw [untouched]
        exact orderly.served
      · rw [boundUrl, untouched]
        exact orderly.stage
      · rw [untouched]
        exact orderly.issued

theorem Orderly.reaches (orderly : ∃ tickets, Orderly context crowd tickets)
    (reached : SeekReaches environment context crowd later) :
    ∃ tickets, Orderly context later tickets := by
  refine reached.keeps (fun crowd => ∃ tickets, Orderly context crowd tickets) ?_ orderly
  rintro _ _ step ⟨_, orderly⟩
  exact orderly.step step

theorem Orderly.of_attempting {tickets : Nat → Option Nat}
    (orderly : Orderly context crowd tickets) {index : Nat} (attempting : Attempting crowd index) :
    tickets index = some (crowd.state.context context).guard.serving ∧
      boundUrl context crowd = none := by
  obtain ⟨purpose, routine, found, wants⟩ := attempting
  obtain ⟨ticket, unbound, -⟩ := (orderly.stage index purpose routine found).of_wants wants
  exact ⟨ticket, unbound⟩

/-- Only one attempt is in flight at a time. -/
theorem Orderly.attempting_unique {tickets : Nat → Option Nat}
    (orderly : Orderly context crowd tickets) {i j : Nat} (hi : Attempting crowd i)
    (hj : Attempting crowd j) : i = j :=
  orderly.apart i j _ (orderly.of_attempting hi).1 (orderly.of_attempting hj).1

theorem Orderly.url_step {tickets : Nat → Option Nat} (orderly : Orderly context crowd tickets)
    (step : SeekStep environment context crowd later) {uri : KeyUri}
    (bound : boundUrl context crowd = some uri) : boundUrl context later = some uri := by
  cases step with
  | come seeker => exact bound
  | move found inner =>
      obtain ⟨ticket', change, -⟩ := (orderly.stage _ _ _ found).step orderly.served inner
      exact change.url bound
  | change untouched => exact (congrArg Context.keyUrl untouched).trans bound

/-- The context is bound by an attempt whose caller ends with the URL. -/
theorem Orderly.bound_by {tickets : Nat → Option Nat} (orderly : Orderly context crowd tickets)
    (step : SeekStep environment context crowd later) {uri : KeyUri}
    (unbound : boundUrl context crowd = none) (bound : boundUrl context later = some uri) :
    ∃ index, Attempting crowd index ∧ Comes later index (.ok uri) := by
  cases step with
  | come seeker =>
      have absurd := unbound.symm.trans bound
      cases absurd
  | @move index purpose routine routine' _ found inner =>
      obtain ⟨ticket', change, -⟩ := (orderly.stage _ _ _ found).step orderly.served inner
      obtain ⟨wants, yields⟩ := change.of_binds unbound bound
      exact ⟨index, ⟨purpose, routine, found, wants⟩, purpose, routine',
        List.getElem?_set_self (List.getElem?_eq_some_iff.mp found).1, yields⟩
  | change untouched =>
      have absurd := unbound.symm.trans ((congrArg Context.keyUrl untouched).symm.trans bound)
      cases absurd

/-- The caller whose attempt has been in flight is still at it or ends with an error, unless the
context is bound by now. -/
def Spent (context : ContextId) (crowd : Seekers σ) (index : Nat) : Prop :=
  boundUrl context crowd ≠ none ∨
    ∃ purpose routine, crowd.callers[index]? = some (purpose, routine) ∧
      (Engaged context routine ∨ ∃ error, routine.Yields (.error error))

theorem Orderly.spent_step {tickets : Nat → Option Nat} (orderly : Orderly context crowd tickets)
    (step : SeekStep environment context crowd later) {index : Nat}
    (spent : Spent context crowd index) : Spent context later index := by
  rcases spent with bound | ⟨purpose, routine, found, state⟩
  · obtain ⟨uri, bound⟩ := Option.ne_none_iff_exists'.mp bound
    left
    rw [orderly.url_step step bound]
    exact Option.some_ne_none uri
  · rcases step.caller found with same | ⟨routine', moved, inner⟩
    · exact .inr ⟨purpose, routine, same, state⟩
    · rcases state with engaged | ⟨error, yields⟩
      · rcases engaged.step inner with engaged' | failed | bound
        · exact .inr ⟨purpose, routine', moved, .inl engaged'⟩
        · exact .inr ⟨purpose, routine', moved, .inr failed⟩
        · exact .inl bound
      · exact .inr ⟨purpose, routine', moved, .inr ⟨error, yields.step inner⟩⟩

/-- An attempt that another one comes after has ended with an error. -/
theorem Orderly.failed_before {tickets : Nat → Option Nat}
    (orderly : Orderly context crowd tickets)
    (onward : SeekReaches environment context crowd later) {i j : Nat} (differ : i ≠ j)
    (hi : Attempting crowd i) (hj : Attempting later j) :
    boundUrl context later = none ∧ ∃ error, Comes later i (.error error) := by
  have spent : Spent context later i := by
    obtain ⟨purpose, routine, found, wants⟩ := hi
    obtain ⟨-, -, engaged⟩ := (orderly.stage i purpose routine found).of_wants wants
    have start : Spent context crowd i := .inr ⟨purpose, routine, found, .inl engaged⟩
    refine (onward.keeps
      (fun crowd => (∃ tickets, Orderly context crowd tickets) ∧ Spent context crowd i)
      ?_ ⟨⟨tickets, orderly⟩, start⟩).2
    rintro _ _ step ⟨⟨_, orderly⟩, spent⟩
    exact ⟨orderly.step step, orderly.spent_step step spent⟩
  obtain ⟨tickets', orderly'⟩ := Orderly.reaches ⟨tickets, orderly⟩ onward
  obtain ⟨ticket, unbound⟩ := orderly'.of_attempting hj
  refine ⟨unbound, ?_⟩
  rcases spent with bound | ⟨purpose, routine, found, engaged | ⟨error, yields⟩⟩
  · exact (bound unbound).elim
  · have mine := (orderly'.stage i purpose routine found).of_engaged engaged
    exact (differ (orderly'.apart i j _ mine ticket)).elim
  · exact ⟨error, purpose, routine, found, yields⟩

/-- Callers come to an unguarded context in any number, at any time and in any order, and requests
come to whatever they come to. In every crowd that can be reached from there, the URL stays once it
is set; who ends well has it; at most one attempt is in flight, and none and no request at all once
the context is bound; an attempt that another one comes after has ended with an error to its own
caller and left the context unbound; and it is an attempt that binds the context, to the URL that
its caller ends with. -/
theorem single_key {start crowd later : Seekers σ} (nobody : start.callers = [])
    (free : (start.state.context context).guard.isFree = true)
    (reached : SeekReaches environment context start crowd)
    (onward : SeekReaches environment context crowd later) :
    (∀ uri, boundUrl context crowd = some uri → boundUrl context later = some uri) ∧
    (∀ index seeker uri, crowd.Ended index seeker (.ok uri) →
      boundUrl context crowd = some uri) ∧
    (∀ i j, Attempting crowd i → Attempting crowd j → i = j) ∧
    (∀ index, Attempting crowd index → boundUrl context crowd = none) ∧
    (∀ index call, Sending crowd index call → boundUrl context crowd = none) ∧
    (∀ i j, i ≠ j → Attempting crowd i → Attempting later j →
      boundUrl context later = none ∧ ∃ error, Comes later i (.error error)) ∧
    ∀ next uri, SeekStep environment context crowd next → boundUrl context crowd = none →
      boundUrl context next = some uri →
      ∃ index, Attempting crowd index ∧ Comes next index (.ok uri) := by
  obtain ⟨tickets, orderly⟩ :=
    Orderly.reaches ⟨fun _ => none, Orderly.start nobody free⟩ reached
  refine ⟨?_, ?_, fun i j => orderly.attempting_unique,
    fun index attempting => (orderly.of_attempting attempting).2, ?_,
    fun i j differ hi hj => orderly.failed_before onward differ hi hj,
    fun next uri step unbound bound => orderly.bound_by step unbound bound⟩
  · intro uri bound
    refine (onward.keeps (fun crowd => (∃ tickets, Orderly context crowd tickets) ∧
      boundUrl context crowd = some uri) ?_ ⟨⟨tickets, orderly⟩, bound⟩).2
    rintro _ _ step ⟨⟨_, orderly⟩, bound⟩
    exact ⟨orderly.step step, orderly.url_step step bound⟩
  · intro index seeker uri found
    exact (orderly.stage index seeker _ found).url_of_done rfl
  · rintro index call ⟨seeker, rest, found⟩
    exact (orderly.of_attempting ⟨seeker, _, found, trivial⟩).2

/-- A broker that is offline at first, makes a key the second time, and is offline again. -/
def flaky : Simulation where
  broker := {
    host := "kms"
    script := [.unreachable "offline",
      .reply { status := 201, keys := [{ uri := some "kms://kms/keys/1" }] },
      .unreachable "offline"] }
  draws := { source := fun _ _ => 0 }

/-- The first of two callers fails, and the second one, whose key is not resolved, binds the
context. -/
theorem single_key_after_failure :
    ∃ crowd : Seekers Simulation,
      SeekReaches Simulation.environment 0 ⟨[], { outside := flaky }⟩ crowd ∧
      crowd.Ended 0 .lazy (.error (.client (.transport "offline"))) ∧
      crowd.Ended 1 (.priming {}) (.ok ⟨"kms://kms/keys/1"⟩) ∧
      boundUrl 0 crowd = some ⟨"kms://kms/keys/1"⟩ := by
  have came : SeekReaches Simulation.environment 0 ⟨[], { outside := flaky }⟩ _ :=
    .tail (.single (.come .lazy)) (.come (.priming {}))
  have reached := came.trans (Crowd.reaches_turns [0, 0, 1, 1, 1] _)
  have url := (single_key rfl rfl reached .refl).2.1 1 (.priming {}) ⟨"kms://kms/keys/1"⟩ rfl
  exact ⟨_, reached, rfl, rfl, url⟩

end FieldCrypt.Context
