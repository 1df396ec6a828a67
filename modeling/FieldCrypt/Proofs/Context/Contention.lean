import FieldCrypt.Proofs.Broker.Creation
import FieldCrypt.Proofs.Client.OneHop
import FieldCrypt.Proofs.Context.Stage
import FieldCrypt.Proofs.Context.SingleKey

/-!
# Callers that contend for a key

Any number of callers take turns to get the key of one unbound context, and the first requests for a
key fail. Everybody but the first caller queues behind the guard. Whoever holds it makes one
attempt: with a failure it hands the guard on, to a caller that gets ready for its own attempt
within the same turn, and with a success all the others find the key within that turn. Each failure
is paid for by one caller, in the order in which they came.
-/

namespace FieldCrypt

open Client (creation createdUri createKey boundKey)

variable {σ : Type}

/-- The outside after so many requests for a key. -/
def Environment.afterCreations (environment : Environment σ) (start : σ) : Nat → σ
  | 0 => start
  | count + 1 => (environment.send creation (environment.afterCreations start count)).2

/-- The request for a key that so many others come before, and what it comes to. -/
def Environment.creationAt (environment : Environment σ) (start : σ) (count : Nat) : Exchange :=
  (creation, (environment.send creation (environment.afterCreations start count)).1)

variable {environment : Environment σ} {context : ContextId}

namespace Context

variable {start : σ} {asked : Nat}
  {url : Option KeyUri} {issued serving : Nat} {state : Shared σ × List Exchange}

/-- Where things stand when a key was asked for so many times: the outside, the context, and the
record of the requests. -/
structure Contended (environment : Environment σ) (context : ContextId) (start : σ)
    (asked : Nat) (url : Option KeyUri) (issued serving : Nat)
    (state : Shared σ × List Exchange) : Prop where
  outside : state.1.outside = environment.afterCreations start asked
  context : state.1.context context = ⟨url, ⟨issued, serving⟩⟩
  record : state.2 = (List.range asked).map (environment.creationAt start)

namespace Contended

theorem looks (contended : Contended environment context start asked url issued serving state) :
    environment.recorder _ (.keyUrl context) state = some (url, state) := by
  obtain ⟨shared, record⟩ := state
  have looked : environment.handle _ (.keyUrl context) shared = some (url, shared) := by
    simp only [Environment.handle, contended.context]
  exact Environment.recorder_silent looked rfl record

theorem arrives (contended : Contended environment context start asked url issued serving state) :
    ∃ next, environment.recorder _ (.arrive context) state = some (issued, next) ∧
      Contended environment context start asked url (issued + 1) serving next := by
  obtain ⟨shared, record⟩ := state
  have arrived : environment.handle _ (.arrive context) shared =
      some (issued, shared.setContext context ⟨url, ⟨issued + 1, serving⟩⟩) := by
    simp only [Environment.handle, contended.context, Guard.arrive]
  exact ⟨_, Environment.recorder_silent arrived rfl record, contended.outside,
    Shared.context_setContext _ _ _, contended.record⟩

theorem admitted
    (contended : Contended environment context start asked url issued serving state) :
    environment.recorder _ (.await context serving) state = some ((), state) := by
  obtain ⟨shared, record⟩ := state
  have passed : environment.handle _ (.await context serving) shared = some ((), shared) := by
    simp [Environment.handle, contended.context, Guard.admits]
  exact Environment.recorder_silent passed rfl record

theorem refused (contended : Contended environment context start asked url issued serving state)
    {ticket : Nat} (later : serving < ticket) :
    environment.recorder _ (.await context ticket) state = none := by
  have behind : serving ≠ ticket := Nat.ne_of_lt later
  simp [Handler.recording, Environment.handle, contended.context, Guard.admits, behind]

theorem releases
    (contended : Contended environment context start asked url issued serving state) :
    ∃ next, environment.recorder _ (.release context) state = some ((), next) ∧
      Contended environment context start asked url issued (serving + 1) next := by
  obtain ⟨shared, record⟩ := state
  have released : environment.handle _ (.release context) shared =
      some ((), shared.setContext context ⟨url, ⟨issued, serving + 1⟩⟩) := by
    simp only [Environment.handle, contended.context, Guard.release]
  exact ⟨_, Environment.recorder_silent released rfl record, contended.outside,
    Shared.context_setContext _ _ _, contended.record⟩

theorem binds (contended : Contended environment context start asked url issued serving state)
    (uri : KeyUri) :
    ∃ next, environment.recorder _ (.bind context uri) state = some ((), next) ∧
      Contended environment context start asked (some uri) issued serving next := by
  obtain ⟨shared, record⟩ := state
  have bound : environment.handle _ (.bind context uri) shared =
      some ((), shared.setContext context ⟨some uri, ⟨issued, serving⟩⟩) := by
    simp only [Environment.handle, contended.context]
  exact ⟨_, Environment.recorder_silent bound rfl record, contended.outside,
    Shared.context_setContext _ _ _, contended.record⟩

theorem sends (contended : Contended environment context start asked url issued serving state) :
    ∃ next, environment.recorder _ (.send creation) state =
        some ((environment.creationAt start asked).2, next) ∧
      Contended environment context start (asked + 1) url issued serving next := by
  obtain ⟨shared, record⟩ := state
  refine ⟨({ shared with outside := environment.afterCreations start (asked + 1) },
    record ++ [environment.creationAt start asked]), ?_, rfl, contended.context, ?_⟩
  · have same := contended.outside
    simp only at same
    simp only [Handler.recording, Environment.handle, same, Option.map_some]
    rfl
  · have noted : record = (List.range asked).map (environment.creationAt start) :=
      contended.record
    rw [List.range_succ, List.map_append, ← noted]
    rfl

end Contended

/-- What the holder of the guard is about to do. -/
def attempt (context : ContextId) : Routine Effect KeyOutcome :=
  .call (.send creation) fun outcome => settle context (createdUri outcome)

/-- Callers with these tickets, who wait to be admitted. -/
def waiters (context : ContextId) (ticket count : Nat) : List (Routine Effect KeyOutcome) :=
  (List.range' ticket count).map (await context createKey)

theorem createKey_settle (context : ContextId) :
    createKey >>= settle context = .pause (attempt context) := by
  rw [Client.createKey_eq]
  rfl

variable {uri : KeyUri} {error : RecordError}

theorem turn_leave (contended : Contended environment context start asked url issued serving state)
    (outcome : KeyOutcome) :
    ∃ next, Routine.turn environment.recorder (leave context outcome) state =
        ⟨.done outcome, next, true⟩ ∧
      Contended environment context start asked url issued (serving + 1) next := by
  obtain ⟨next, released, contended⟩ := contended.releases
  exact ⟨next, Routine.turn_call released _, contended⟩

/-- A failed attempt ends, and the guard goes on to the next ticket. -/
theorem turn_attempt_error
    (contended : Contended environment context start asked none issued serving state)
    (fails : createdUri (environment.creationAt start asked).2 = .error error) :
    ∃ next, Routine.turn environment.recorder (attempt context) state =
        ⟨.done (.error error), next, true⟩ ∧
      Contended environment context start (asked + 1) none issued (serving + 1) next := by
  obtain ⟨middle, sent, contended⟩ := contended.sends
  obtain ⟨next, left, contended⟩ := turn_leave contended (.error error)
  refine ⟨next, ?_, contended⟩
  rw [attempt, Routine.turn_call sent, fails, settle, left]

/-- A successful attempt ends with the context bound. -/
theorem turn_attempt_ok
    (contended : Contended environment context start asked none issued serving state)
    (succeeds : createdUri (environment.creationAt start asked).2 = .ok uri) :
    ∃ next, Routine.turn environment.recorder (attempt context) state =
        ⟨.done (.ok uri), next, true⟩ ∧
      Contended environment context start (asked + 1) (some uri) issued (serving + 1) next := by
  obtain ⟨_, sent, contended⟩ := contended.sends
  obtain ⟨_, bound, contended⟩ := contended.binds uri
  obtain ⟨next, left, contended⟩ := turn_leave contended (.ok uri)
  refine ⟨next, ?_, contended⟩
  rw [attempt, Routine.turn_call sent, succeeds, settle, Routine.turn_call bound, left]

/-- Who is admitted to an unbound context gets ready for an attempt. -/
theorem turn_await_unbound
    (contended : Contended environment context start asked none issued serving state) :
    Routine.turn environment.recorder (await context createKey serving) state =
      ⟨attempt context, state, true⟩ := by
  rw [await, Routine.turn_call contended.admitted, recheck, Routine.turn_call contended.looks,
    createKey_settle]
  rfl

/-- Who is admitted to a bound context ends with its URL. -/
theorem turn_await_bound
    (contended : Contended environment context start asked (some uri) issued serving state) :
    ∃ next, Routine.turn environment.recorder (await context createKey serving) state =
        ⟨.done (.ok uri), next, true⟩ ∧
      Contended environment context start asked (some uri) issued (serving + 1) next := by
  obtain ⟨next, left, after⟩ := turn_leave contended (.ok uri)
  refine ⟨next, ?_, after⟩
  rw [await, Routine.turn_call contended.admitted, recheck, Routine.turn_call contended.looks,
    left]

/-- Nothing moves while all tickets are still to come. -/
theorem turn_waiters_refused
    (contended : Contended environment context start asked url issued serving state)
    {ticket : Nat} (later : serving < ticket) (count : Nat) :
    Routine.turn environment.recorder (.all (waiters context ticket count)) state =
      ⟨.all (waiters context ticket count), state, false⟩ := by
  induction count generalizing ticket with
  | zero => rfl
  | succ count ih =>
      have first : Routine.turn environment.recorder (await context createKey ticket) state =
          ⟨await context createKey ticket, state, false⟩ :=
        Routine.turn_call_none (contended.refused later) _
      exact Routine.turn_both_apart first (ih (Nat.lt_succ_of_lt later)) (.inl rfl) _

/-- Once the context is bound, all who wait find its URL within one turn. -/
theorem turn_waiters_bound (count : Nat)
    (contended : Contended environment context start asked (some uri) issued serving state) :
    ∃ next moved, Routine.turn environment.recorder (.all (waiters context serving count)) state =
        ⟨.done (List.replicate count (.ok uri)), next, moved⟩ ∧
      Contended environment context start asked (some uri) issued (serving + count) next := by
  induction count generalizing serving state with
  | zero => exact ⟨state, false, rfl, contended⟩
  | succ count ih =>
      obtain ⟨middle, first, contended⟩ := turn_await_bound contended
      obtain ⟨next, moved, others, contended⟩ := ih contended
      refine ⟨next, true, Routine.turn_both_done first others _, ?_⟩
      rw [Nat.add_right_comm] at contended
      exact contended

/-- Who comes while the guard is held queues up behind it. -/
theorem turn_arrivals (count : Nat)
    (contended : Contended environment context start asked none issued serving state)
    (held : serving < issued) :
    ∃ next moved,
      Routine.turn environment.recorder (.all (List.replicate count (boundKey context))) state =
        ⟨.all (waiters context issued count), next, moved⟩ ∧
      Contended environment context start asked none (issued + count) serving next := by
  induction count generalizing issued state with
  | zero => exact ⟨state, false, rfl, contended⟩
  | succ count ih =>
      obtain ⟨middle, arrived, queued⟩ := contended.arrives
      have first : Routine.turn environment.recorder (boundKey context) state =
          ⟨await context createKey issued, middle, true⟩ := by
        rw [boundKey, bindOnce_eq, Routine.turn_call contended.looks, queue,
          Routine.turn_call arrived, await, Routine.turn_call_none (queued.refused held)]
      obtain ⟨next, moved, others, contended⟩ := ih queued (Nat.lt_succ_of_lt held)
      refine ⟨next, true, Routine.turn_both_apart first others (.inl rfl) _, ?_⟩
      rw [Nat.add_right_comm] at contended
      exact contended

/-- The callers that are left when the guard serves a ticket: the first one holds it. -/
def line (context : ContextId) (serving : Nat) : Nat → List (Routine Effect KeyOutcome)
  | 0 => []
  | count + 1 => attempt context :: waiters context (serving + 1) count

/-- With a success, the queue comes to its end. -/
theorem run_line_ok
    (succeeds : createdUri (environment.creationAt start asked).2 = .ok uri) (count : Nat)
    (contended : Contended environment context start asked none issued serving state) :
    ∃ last,
      Routine.run environment.recorder (.all (line context serving (count + 1))) state =
        some (List.replicate (count + 1) (.ok uri), last) ∧
      Contended environment context start (asked + 1) (some uri) issued (serving + 1 + count)
        last := by
  obtain ⟨middle, created, contended⟩ := turn_attempt_ok contended succeeds
  obtain ⟨last, moved, others, contended⟩ := turn_waiters_bound count contended
  have turned : Routine.turn environment.recorder (.all (line context serving (count + 1)))
      state = ⟨.done (List.replicate (count + 1) (.ok uri)), last, true⟩ :=
    Routine.turn_both_done created others _
  refine ⟨last, ?_, contended⟩
  rw [← Routine.run_turn, turned, Routine.run_done]

/-- With a failure, the first caller leaves the queue, and the next one gets ready. -/
theorem run_line_error
    (fails : createdUri (environment.creationAt start asked).2 = .error error) (count : Nat)
    (contended : Contended environment context start asked none issued serving state) :
    ∃ middle,
      Routine.run environment.recorder (.all (line context serving (count + 1))) state =
        (Routine.run environment.recorder (.all (line context (serving + 1) count)) middle).map
          (fun ended => (.error error :: ended.1, ended.2)) ∧
      Contended environment context start (asked + 1) none issued (serving + 1) middle := by
  obtain ⟨middle, failed, contended⟩ := turn_attempt_error contended fails
  refine ⟨middle, ?_, contended⟩
  cases count with
  | zero =>
      have nobody : Routine.turn environment.recorder (.all (waiters context (serving + 1) 0))
          middle = ⟨.done [], middle, false⟩ := rfl
      have turned : Routine.turn environment.recorder (.all (line context serving 1)) state =
          ⟨.done [.error error], middle, true⟩ :=
        Routine.turn_both_done failed nobody _
      rw [← Routine.run_turn, turned, line, Routine.all, Routine.run_done, Routine.run_done]
      rfl
  | succ count =>
      have next : Routine.turn environment.recorder
          (.all (waiters context (serving + 1) (count + 1))) middle =
            ⟨.all (line context (serving + 1) (count + 1)), middle, true⟩ :=
        Routine.turn_both_apart (turn_await_unbound contended)
          (turn_waiters_refused contended (Nat.lt_succ_self _) count) (.inl rfl) _
      have turned : Routine.turn environment.recorder (.all (line context serving (count + 2)))
          state = ⟨.both (.done (.error error)) (.all (line context (serving + 1) (count + 1)))
            fun first others => .done (first :: others), middle, true⟩ :=
        Routine.turn_both_apart failed next (.inr rfl) _
      rw [← Routine.run_turn, turned, Routine.run_both_done, Routine.run_bind, Option.map_eq_bind]
      exact congrArg (Option.bind _) (funext fun ended => Routine.run_done _ _)

/-- What the caller comes to that so many others came before, when this many attempts fail. -/
def share (failures : Nat) (errors : Nat → RecordError) (uri : KeyUri) (earlier : Nat) :
    KeyOutcome :=
  if earlier < failures then .error (errors earlier) else .ok uri

variable {failures : Nat} {errors : Nat → RecordError}

theorem map_share_of_le {first : Nat} (spent : failures ≤ first) (count : Nat) :
    (List.range' first count).map (share failures errors uri) =
      List.replicate count (.ok uri) := by
  have each : ∀ earlier ∈ List.range' first count,
      share failures errors uri earlier = .ok uri := by
    intro earlier among
    exact if_neg (Nat.not_lt.mpr (Nat.le_trans spent (List.mem_range'_1.mp among).1))
  calc (List.range' first count).map (share failures errors uri)
    _ = List.replicate (List.range' first count).length (.ok uri) :=
        List.map_eq_replicate_iff.mpr each
    _ = List.replicate count (.ok uri) := by rw [List.length_range']

/-- Each failure takes one caller out of the queue, and the success takes all that are left. -/
theorem run_line
    (fail : ∀ number < failures,
      createdUri (environment.creationAt start number).2 = .error (errors number))
    (succeeds : createdUri (environment.creationAt start failures).2 = .ok uri) (count : Nat)
    (due : asked ≤ failures)
    (contended : Contended environment context start asked none (serving + count) serving state) :
    ∃ last,
      Routine.run environment.recorder (.all (line context serving count)) state =
        some ((List.range' asked count).map (share failures errors uri), last) ∧
      Contended environment context start (min (asked + count) (failures + 1))
        (if failures < asked + count then some uri else none) (serving + count)
        (serving + count) last := by
  induction count generalizing asked serving state with
  | zero =>
      refine ⟨state, Routine.run_done _ _, ?_⟩
      rw [Nat.add_zero, Nat.min_eq_left (Nat.le_succ_of_le due), if_neg (Nat.not_lt.mpr due)]
      exact contended
  | succ count ih =>
      have left : serving + (count + 1) = serving + 1 + count := by omega
      have tried : asked + (count + 1) = asked + 1 + count := by omega
      rw [left] at contended ⊢
      rw [tried]
      rcases Nat.lt_or_eq_of_le due with failing | rfl
      · obtain ⟨middle, ran, contended⟩ := run_line_error (fail asked failing) count contended
        obtain ⟨last, others, contended⟩ := ih failing contended
        refine ⟨last, ?_, contended⟩
        rw [ran, others, List.range'_succ, List.map_cons, share, if_pos failing]
        rfl
      · obtain ⟨last, ran, contended⟩ := run_line_ok succeeds count contended
        refine ⟨last, ?_, ?_⟩
        · rw [ran, map_share_of_le (Nat.le_refl _)]
        · rw [Nat.min_eq_right (by omega), if_pos (by omega)]
          exact contended

/-- The first turn of everybody: the first caller gets ready for an attempt, and all others queue
up. -/
theorem run_arrivals (count : Nat)
    (contended : Contended environment context start asked none serving serving state) :
    ∃ next,
      Routine.run environment.recorder (.all (List.replicate count (boundKey context))) state =
        Routine.run environment.recorder (.all (line context serving count)) next ∧
      Contended environment context start asked none (serving + count) serving next := by
  cases count with
  | zero => exact ⟨state, rfl, contended⟩
  | succ count =>
      obtain ⟨middle, arrived, holding⟩ := contended.arrives
      have first : Routine.turn environment.recorder (boundKey context) state =
          ⟨attempt context, middle, true⟩ := by
        rw [boundKey, bindOnce_eq, Routine.turn_call contended.looks, queue,
          Routine.turn_call arrived, turn_await_unbound holding]
      obtain ⟨next, moved, others, contended⟩ :=
        turn_arrivals count holding (Nat.lt_succ_self serving)
      have turned : Routine.turn environment.recorder
          (.all (List.replicate (count + 1) (boundKey context))) state =
            ⟨.all (line context serving (count + 1)), next, true⟩ :=
        Routine.turn_both_apart first others (.inl rfl) _
      refine ⟨next, ?_, ?_⟩
      · rw [← Routine.run_turn, turned]
      · rw [Nat.add_right_comm] at contended
        exact contended

end Context

/-- Callers take turns to get the key of a context that is unbound and free. The first requests for
a key fail, as many as `failures` says and each with an error of its own, and the next one is
answered with the key of a URI. Then every one of the first callers has the error of the attempt
with its own number, all the others have the URI, a key was asked for once for each failure and once
more, but by no caller twice, and the context is bound to the URI unless all callers have failed. -/
theorem Client.contended_creation {shared : Shared σ} {failures : Nat} {errors : Nat → RecordError}
    {uri : KeyUri} (unbound : (shared.context context).keyUrl = none)
    (free : (shared.context context).guard.isFree = true)
    (fail : ∀ number < failures,
      createdUri (environment.creationAt shared.outside number).2 = .error (errors number))
    (succeeds : createdUri (environment.creationAt shared.outside failures).2 = .ok uri)
    (count : Nat) :
    ∃ last,
      Routine.run environment.recorder (.all (List.replicate count (boundKey context)))
        (shared, []) =
          some ((List.range count).map fun earlier =>
              if earlier < failures then .error (errors earlier) else .ok uri,
            last,
            (List.range (min count (failures + 1))).map (environment.creationAt shared.outside)) ∧
      (last.context context).keyUrl = (if failures < count then some uri else none) ∧
      (last.context context).guard.isFree = true := by
  rcases same : shared.context context with ⟨url, issued, serving⟩
  rw [same] at unbound free
  obtain rfl : url = none := unbound
  obtain rfl : issued = serving := of_decide_eq_true free
  have contended : Context.Contended environment context shared.outside 0 none issued issued
      (shared, []) := ⟨rfl, same, rfl⟩
  obtain ⟨next, arrived, contended⟩ := Context.run_arrivals count contended
  obtain ⟨⟨last, record⟩, ran, contended⟩ :=
    Context.run_line fail succeeds count (Nat.zero_le _) contended
  rw [Nat.zero_add] at contended
  have noted : record = _ := contended.record
  have left : last.context context = _ := contended.context
  refine ⟨last, ?_, ?_, ?_⟩
  · rw [arrived, ran, noted, ← List.range_eq_range']
    rfl
  · rw [left]
  · rw [left]
    exact decide_eq_true rfl

/-- Of three callers the first one fails, and the other two share the key that the second one
created. -/
theorem Client.contended_creation_flaky :
    ∃ last first second,
      Routine.run Simulation.environment.recorder (.all (List.replicate 3 (boundKey 0)))
        ({ outside := Context.flaky }, []) =
          some ([.error (.client (.transport "offline")), .ok ⟨"kms://kms/keys/1"⟩,
            .ok ⟨"kms://kms/keys/1"⟩], last, [(creation, first), (creation, second)]) ∧
      (last.context 0).keyUrl = some ⟨"kms://kms/keys/1"⟩ := by
  have fail : ∀ number < 1,
      createdUri (Simulation.environment.creationAt Context.flaky number).2 =
        .error (.client (.transport "offline")) := by
    intro number first
    obtain rfl := Nat.lt_one_iff.mp first
    rfl
  have succeeds : createdUri (Simulation.environment.creationAt Context.flaky 1).2 =
      .ok ⟨"kms://kms/keys/1"⟩ := rfl
  have free : (({ outside := Context.flaky } : Shared Simulation).context 0).guard.isFree = true :=
    rfl
  obtain ⟨last, ran, bound, -⟩ := Client.contended_creation rfl free fail succeeds 3
  exact ⟨last, _, _, ran, bound⟩

end FieldCrypt
