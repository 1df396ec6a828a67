import FieldCrypt.Proofs.Broker.Creation
import FieldCrypt.Proofs.Client.OneHop
import FieldCrypt.Proofs.Context.Stage
import FieldCrypt.Simulation

/-!
# Priming a context

A context is bound on first use to the key that was just created for it, or ahead of use to the key
that the created one is resolved to. What a single caller does is worked out once for any way of
getting a key (`leaves_bindOnce`), and the two ways are compared through it: they differ in nothing
but the URI that is bound, and not even in that when resolving it fails.
-/

namespace FieldCrypt

variable {σ τ : Type} {environment : Environment σ} {context : ContextId} {shared : Shared σ}

/-- The guard of a context is taken by one more caller. -/
def Shared.taken (shared : Shared σ) (context : ContextId) : Shared σ :=
  shared.setContext context
    ⟨(shared.context context).keyUrl, (shared.context context).guard.arrive.2⟩

theorem Shared.outside_taken (shared : Shared σ) (context : ContextId) :
    (shared.taken context).outside = shared.outside := rfl

theorem Shared.context_taken (unbound : (shared.context context).keyUrl = none) :
    (shared.taken context).context context =
      ⟨none, (shared.context context).guard.arrive.2⟩ := by
  rw [Shared.taken, Shared.context_setContext, unbound]

theorem Shared.keyUrl_taken (unbound : (shared.context context).keyUrl = none) :
    ((shared.taken context).context context).keyUrl = none :=
  congrArg Context.keyUrl (context_taken unbound)

theorem Environment.handle_keyUrl (environment : Environment σ) {url : Option KeyUri}
    (found : (shared.context context).keyUrl = url) :
    environment.handle _ (.keyUrl context) shared = some (url, shared) := by
  subst found
  rfl

theorem Environment.handle_arrive (environment : Environment σ) :
    environment.handle _ (.arrive context) shared =
      some ((shared.context context).guard.issued, shared.taken context) := rfl

/-- Who takes a free guard is let in at once. -/
theorem Environment.handle_await_taken (environment : Environment σ)
    (free : (shared.context context).guard.isFree = true) :
    environment.handle _ (.await context (shared.context context).guard.issued)
      (shared.taken context) = some ((), shared.taken context) := by
  have next : (shared.context context).guard.serving = (shared.context context).guard.issued := by
    simpa [Guard.isFree, eq_comm] using free
  simp [Environment.handle, Shared.taken, Guard.admits, Guard.arrive, next]

/-- Who takes a guard that somebody else holds has to wait. -/
theorem Environment.handle_await_held (environment : Environment σ)
    (held : (shared.context context).guard.isFree = false) :
    environment.handle _ (.await context (shared.context context).guard.issued)
      (shared.taken context) = none := by
  have behind : (shared.context context).guard.serving ≠
      (shared.context context).guard.issued := by
    simpa [Guard.isFree, eq_comm] using held
  simp [Environment.handle, Shared.taken, Guard.admits, Guard.arrive, behind]

namespace Context

variable {create : Routine Effect KeyOutcome} {record : List Exchange}

/-- Who finds the context bound does nothing more. -/
theorem run_bindOnce_bound {uri : KeyUri} (bound : (shared.context context).keyUrl = some uri) :
    Routine.run environment.recorder (bindOnce context create) (shared, record) =
      some (.ok uri, shared, record) := by
  rw [bindOnce_eq,
    Routine.run_call (Environment.recorder_silent (environment.handle_keyUrl bound) rfl record),
    Routine.run_done]

/-- Who finds the context unbound draws a ticket. -/
theorem run_bindOnce_unbound (unbound : (shared.context context).keyUrl = none) :
    Routine.run environment.recorder (bindOnce context create) (shared, record) =
      Routine.run environment.recorder
        (await context create (shared.context context).guard.issued)
        (shared.taken context, record) := by
  rw [bindOnce_eq,
    Routine.run_call (Environment.recorder_silent (environment.handle_keyUrl unbound) rfl record),
    queue, Routine.run_call (Environment.recorder_silent environment.handle_arrive rfl record)]

/-- Who comes to a guard that is held waits for ever when nobody else does anything. -/
theorem run_bindOnce_held (unbound : (shared.context context).keyUrl = none)
    (held : (shared.context context).guard.isFree = false) :
    Routine.run environment.recorder (bindOnce context create) (shared, record) = none := by
  have waits : environment.recorder _ (.await context (shared.context context).guard.issued)
      (shared.taken context, record) = none := by
    simp only [Handler.recording, environment.handle_await_held held, Option.map_none]
  rw [run_bindOnce_unbound unbound, await, Routine.run_call_none waits]

theorem run_leave (outcome : KeyOutcome) :
    Routine.run environment.recorder (leave context outcome) (shared, record) =
      some (outcome, shared.setContext context
        ⟨(shared.context context).keyUrl, (shared.context context).guard.release⟩, record) := by
  have released : environment.handle _ (.release context) shared =
      some ((), shared.setContext context
        ⟨(shared.context context).keyUrl, (shared.context context).guard.release⟩) := rfl
  rw [leave, Routine.run_call (Environment.recorder_silent released rfl record), Routine.run_done]

/-- The context is bound to the key that was created, if one was. -/
theorem run_settle (unbound : (shared.context context).keyUrl = none) (outcome : KeyOutcome) :
    ∃ last,
      Routine.run environment.recorder (settle context outcome) (shared, record) =
        some (outcome, last, record) ∧
      (last.context context).keyUrl = outcome.toOption := by
  cases outcome with
  | error error =>
      refine ⟨_, run_leave _, ?_⟩
      rw [Shared.context_setContext]
      exact unbound
  | ok uri =>
      have bound : environment.handle _ (.bind context uri) shared = some ((),
          shared.setContext context ⟨some uri, (shared.context context).guard⟩) := rfl
      rw [settle, Routine.run_call (Environment.recorder_silent bound rfl record), run_leave]
      refine ⟨_, rfl, ?_⟩
      rw [Shared.context_setContext, Shared.context_setContext]
      rfl

/-- A caller comes to an outcome after these exchanges, and leaves the context with this URL. -/
def Leaves (environment : Environment σ) (context : ContextId) (caller : Routine Effect KeyOutcome)
    (shared : Shared σ) (outcome : KeyOutcome) (sent : List Exchange) (url : Option KeyUri) :
    Prop :=
  ∃ last, Routine.run environment.recorder caller (shared, []) = some (outcome, last, sent) ∧
    (last.context context).keyUrl = url

/-- Who comes to a free guard creates a key, and leaves the context bound to it if there is one. -/
theorem leaves_bindOnce (modest : create.Only Effect.OfClient)
    (unbound : (shared.context context).keyUrl = none)
    (free : (shared.context context).guard.isFree = true) {outcome : KeyOutcome}
    {middle : Shared σ} {sent : List Exchange}
    (created : Routine.run environment.recorder create (shared.taken context, []) =
      some (outcome, middle, sent)) :
    Leaves environment context (bindOnce context create) shared outcome sent
      outcome.toOption := by
  have still : (middle.context context).keyUrl = none := by
    have steps := Routine.ends_of_run (Routine.run_of_recording created)
    have kept : middle.context context = (shared.taken context).context context :=
      congrArg (Numbered.get · context) (steps.contexts_eq modest)
    rw [kept, Shared.context_taken unbound]
  obtain ⟨last, ran, left⟩ := run_settle still outcome
  refine ⟨last, ?_, left⟩
  rw [run_bindOnce_unbound unbound, await,
    Routine.run_call (Environment.recorder_silent (environment.handle_await_taken free) rfl []),
    recheck,
    Routine.run_call (Environment.recorder_silent
      (environment.handle_keyUrl (Shared.keyUrl_taken unbound)) rfl []),
    Routine.run_bind, created, Option.bind_some, ran]

end Context

/-- The outside and the caches are the same, and what is recorded follows what was before. -/
structure Trailing (before : List Exchange) (first second : Shared σ × List Exchange) : Prop where
  outside : second.1.outside = first.1.outside
  caches : second.1.caches = first.1.caches
  record : second.2 = before ++ first.2

/-- Contexts, and what was recorded before, make no difference to a client. -/
theorem Environment.alike_trailing (environment : Environment σ) (before : List Exchange) :
    Alike environment.recorder environment.recorder Effect.OfClient (Trailing before) := by
  rintro β effect ofClient ⟨first, noted⟩ ⟨⟨_, _, contexts⟩, _⟩ ⟨rfl, rfl, rfl⟩
  cases effect with
  | send call => exact .some ⟨rfl, rfl, rfl, List.append_assoc _ _ _⟩
  | lookup id uri => exact .some ⟨rfl, rfl, rfl, List.append_assoc _ _ _⟩
  | remember id requested key => exact .some ⟨rfl, rfl, rfl, List.append_assoc _ _ _⟩
  | _ => exact ofClient.elim

theorem Trailing.run {α : Type} {before : List Exchange} {first second : Shared σ × List Exchange}
    (trailing : Trailing before first second) {routine : Routine Effect α}
    (only : routine.Only Effect.OfClient) {result : α} {last : Shared σ} {noted : List Exchange}
    (ran : Routine.run environment.recorder routine first = some (result, last, noted)) :
    ∃ last',
      Routine.run environment.recorder routine second = some (result, last', before ++ noted) := by
  have alike := Routine.run_alike (environment.alike_trailing before) only trailing
  rw [ran] at alike
  generalize Routine.run environment.recorder routine second = other at alike ⊢
  cases alike with
  | @some _ ended same =>
      obtain ⟨_, last', _⟩ := ended
      obtain ⟨rfl, -, -, rfl⟩ := same
      exact ⟨last', rfl⟩

namespace Client

open Broker

/-- The URI that a context is primed with when asking for the key that was created comes to this. -/
def primedUri (created : KeyUri) : Except ClientError KeyMaterial → KeyUri
  | .ok key => key.uri
  | .error _ => created

theorem createResolvedKey_eq (client : Client) :
    client.createResolvedKey = createKey >>= fun
      | .ok created => client.resolveKey created {} >>= fun resolved =>
          .done (.ok (primedUri created resolved))
      | .error error => .done (.error error) := by
  refine congrArg (createKey >>= ·) (funext fun outcome => ?_)
  cases outcome with
  | error error => rfl
  | ok created =>
      refine congrArg (client.resolveKey created {} >>= ·) (funext fun resolved => ?_)
      cases resolved <;> rfl

/-- One key is created with one request, whatever it comes to. -/
theorem run_createKey (shared : Shared σ) (record : List Exchange) :
    Routine.run environment.recorder createKey (shared, record) =
      some (createdUri (environment.send creation shared.outside).1,
        { shared with outside := (environment.send creation shared.outside).2 },
        record ++ [(creation, (environment.send creation shared.outside).1)]) := by
  rw [createKey_eq, Routine.run_pause, Routine.run_call rfl, Routine.run_done]
  rfl

/-- The key that was created is asked for as it would be at any other time. -/
theorem run_createResolvedKey (client : Client) {created : KeyUri}
    (made : createdUri (environment.send creation shared.outside).1 = .ok created) :
    ∃ resolved asked sent middle,
      Routine.run environment.recorder (client.resolveKey created {})
        ({ shared with outside := (environment.send creation shared.outside).2 }, []) =
          some (resolved, asked, sent) ∧
      OneHop (client.cached? shared created) created {} sent resolved ∧
      Routine.run environment.recorder client.createResolvedKey (shared.taken context, []) =
        some (.ok (primedUri created resolved), middle,
          (creation, (environment.send creation shared.outside).1) :: sent) := by
  obtain ⟨resolved, asked, sent, ran, hop⟩ := run_resolveKey environment client created {}
    { shared with outside := (environment.send creation shared.outside).2 }
  have trailing : Trailing [(creation, (environment.send creation shared.outside).1)]
      ({ shared with outside := (environment.send creation shared.outside).2 }, [])
      ({ shared.taken context with outside := (environment.send creation shared.outside).2 },
        [(creation, (environment.send creation shared.outside).1)]) := ⟨rfl, rfl, rfl⟩
  obtain ⟨middle, ran'⟩ := trailing.run (client.resolveKey_only created {}) ran
  refine ⟨resolved, asked, sent, middle, ran, hop, ?_⟩
  rw [createResolvedKey_eq, Routine.run_bind, run_createKey, Shared.outside_taken, made,
    Option.bind_some]
  simp only
  rw [Routine.run_bind, List.nil_append, ran', Option.bind_some, Routine.run_done]
  rfl

theorem run_createResolvedKey_error (client : Client) {error : RecordError}
    (made : createdUri (environment.send creation shared.outside).1 = .error error) :
    ∃ middle,
      Routine.run environment.recorder client.createResolvedKey (shared.taken context, []) =
        some (.error error, middle,
          [(creation, (environment.send creation shared.outside).1)]) := by
  rw [createResolvedKey_eq, Routine.run_bind, run_createKey, Shared.outside_taken, made,
    Option.bind_some]
  exact ⟨_, Routine.run_done _ _⟩

/-- Two contexts are equal, one of them is bound on first use and the other one primed, and the
request for a key is answered alike to both. If they are bound, both callers come to the URL and
nothing else happens. If somebody else holds their guards, both wait. If they are free, the answer
to the request decides: both fail with the same error and leave the context unbound, or both
succeed. Then the one that is primed gets the URI of the key that the created URI is resolved to,
and the one that was created when resolving it fails. -/
theorem prime_agrees {other : Environment τ} (client : Client) {late : Shared σ} {early : Shared τ}
    (equal : early.context context = late.context context) {answer : Except ClientError Reply}
    (answered : (environment.send creation late.outside).1 = answer)
    (likewise : (other.send creation early.outside).1 = answer) :
    (∀ uri, (late.context context).keyUrl = some uri →
      Routine.run environment.recorder (boundKey context) (late, []) = some (.ok uri, late, []) ∧
      Routine.run other.recorder (client.prime context) (early, []) =
        some (.ok uri, early, [])) ∧
    ((late.context context).keyUrl = none → (late.context context).guard.isFree = false →
      Routine.run environment.recorder (boundKey context) (late, []) = none ∧
      Routine.run other.recorder (client.prime context) (early, []) = none) ∧
    ((late.context context).keyUrl = none → (late.context context).guard.isFree = true →
      (∃ error, createdUri answer = .error error ∧
        Context.Leaves environment context (boundKey context) late (.error error)
          [(creation, answer)] none ∧
        Context.Leaves other context (client.prime context) early (.error error)
          [(creation, answer)] none) ∨
      ∃ created resolved asked sent, createdUri answer = .ok created ∧
        Context.Leaves environment context (boundKey context) late (.ok created)
          [(creation, answer)] (some created) ∧
        Routine.run other.recorder (client.resolveKey created {})
          ({ early with outside := (other.send creation early.outside).2 }, []) =
            some (resolved, asked, sent) ∧
        OneHop (client.cached? early created) created {} sent resolved ∧
        Context.Leaves other context (client.prime context) early (.ok (primedUri created resolved))
          ((creation, answer) :: sent) (some (primedUri created resolved))) := by
  refine ⟨fun uri bound => ⟨?_, ?_⟩, fun unbound held => ⟨?_, ?_⟩, fun unbound free => ?_⟩
  · exact Context.run_bindOnce_bound bound
  · exact Context.run_bindOnce_bound (equal ▸ bound)
  · exact Context.run_bindOnce_held unbound held
  · exact Context.run_bindOnce_held (equal ▸ unbound) (equal ▸ held)
  · have unbound' : (early.context context).keyUrl = none := equal ▸ unbound
    have free' : (early.context context).guard.isFree = true := equal ▸ free
    have onFirstUse : Context.Leaves environment context (boundKey context) late
        (createdUri answer) [(creation, answer)] (createdUri answer).toOption := by
      rw [← answered]
      exact Context.leaves_bindOnce createKey_serially.only unbound free (run_createKey _ [])
    cases made : createdUri answer with
    | error error =>
        rw [made] at onFirstUse
        rw [← likewise] at made
        obtain ⟨middle, created⟩ := run_createResolvedKey_error client made
        have primed := Context.leaves_bindOnce client.createResolvedKey_serially.only unbound'
          free' created
        rw [likewise] at primed
        exact .inl ⟨error, rfl, onFirstUse, primed⟩
    | ok created =>
        rw [made] at onFirstUse
        rw [← likewise] at made
        obtain ⟨resolved, asked, sent, middle, resolving, hop, ran⟩ :=
          run_createResolvedKey client made
        have primed := Context.leaves_bindOnce client.createResolvedKey_serially.only unbound'
          free' ran
        rw [likewise] at primed
        exact .inr ⟨created, resolved, asked, sent, rfl, onFirstUse, resolving, hop, primed⟩

/-- A broker that makes a key, and has moved it by the time that somebody asks for it. -/
def movesKeys : Simulation where
  broker := {
    host := "kms"
    script := [.reply { status := 201, keys := [{ uri := some "kms://kms/keys/1" }] },
      .reply { status := 409, errorCode := some 301002, redirectUri := some "kms://new/keys/1" },
      .reply (.ofKey { uri := some "kms://new/keys/1" })] }
  draws := { source := fun _ _ => 0 }

/-- Whoever comes on first use gets the URI that was created, and who comes ahead of it the one that
the key has moved to. -/
theorem prime_agrees_moved :
    ∃ answer sent,
      Context.Leaves Simulation.environment 0 (boundKey 0) { outside := movesKeys }
        (.ok ⟨"kms://kms/keys/1"⟩) [(creation, answer)] (some ⟨"kms://kms/keys/1"⟩) ∧
      Context.Leaves Simulation.environment 0 (prime {} 0) { outside := movesKeys }
        (.ok ⟨"kms://new/keys/1"⟩) ((creation, answer) :: sent)
        (some ⟨"kms://new/keys/1"⟩) := by
  obtain ⟨-, -, decided⟩ := @prime_agrees _ _ Simulation.environment 0 Simulation.environment {}
    { outside := movesKeys } { outside := movesKeys } rfl _ rfl rfl
  rcases decided rfl rfl with ⟨error, failed, -⟩ |
    ⟨created, resolved, asked, sent, made, onFirstUse, resolving, -, primed⟩
  · cases failed
  · cases made
    -- Two requests and what comes of the second answer take three turns.
    rw [← Routine.run_turn, ← Routine.run_turn, ← Routine.run_turn] at resolving
    have ended := (Routine.run_done _ _).symm.trans resolving
    cases ended
    exact ⟨_, _, onFirstUse, primed⟩

end Client

end FieldCrypt
