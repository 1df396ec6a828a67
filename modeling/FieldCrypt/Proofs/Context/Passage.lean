import FieldCrypt.Proofs.Context.Priming
import FieldCrypt.Proofs.Record.Exact
import FieldCrypt.Proofs.Routine.Outcome

/-!
# Through the guard of a context and out again

A record is kept of all that goes out, to the broker and to ciphers. Who comes to an unbound context
whose guard is free leads to one outcome: a single request decides whether the context is bound
afterwards, and the guard is free again either way. Who comes to a guard that is held waits.
-/

namespace FieldCrypt

open Client (creation createdUri)

variable {σ : Type}

/-- An exchange with the broker, or a question to a cipher outside. -/
abbrev Outward := Exchange ⊕ Question

/-- What goes out with an effect. -/
def Effect.outward : (β : Type) → Effect β → β → List Outward
  | _, .send call, outcome => [.inl (call, outcome)]
  | _, .transform cipher direction key text, outcome =>
    [.inr ⟨cipher, direction, key, text, outcome⟩]
  | _, _, _ => []

/-- The handler of an environment, with a record of all that goes out. -/
abbrev Environment.observer (environment : Environment σ) :
    Handler Effect (Shared σ × List Outward) :=
  environment.handle.recording Effect.outward

/-- An effect with which nothing goes out adds nothing to the record. -/
theorem Environment.observer_silent {environment : Environment σ} {β : Type} {effect : Effect β}
    {shared next : Shared σ} {answer : β}
    (handled : environment.handle _ effect shared = some (answer, next))
    (silent : effect.outward _ answer = []) (record : List Outward) :
    environment.observer _ effect (shared, record) = some (answer, next, record) :=
  Handler.recording_silent handled silent record

namespace Context

open Routine (Leads)

variable {context : ContextId} {before now shared : Shared σ}

/-- Since before, one caller has come to the guard of the context. Contexts besides it and caches
are as they were. -/
structure Inside (context : ContextId) (before now : Shared σ) : Prop where
  guard : (now.context context).guard = (before.context context).guard.arrive.2
  others : ∀ other, other ≠ context → now.context other = before.context other
  caches : now.caches = before.caches

/-- The context has this URL now, and its guard is free. Contexts besides it and caches are as they
were. -/
structure Passed (context : ContextId) (url : Option KeyUri) (before now : Shared σ) : Prop where
  url : (now.context context).keyUrl = url
  free : (now.context context).guard.isFree = true
  others : ∀ other, other ≠ context → now.context other = before.context other
  caches : now.caches = before.caches

theorem inside_taken (context : ContextId) (shared : Shared σ) :
    Inside context shared (shared.taken context) where
  guard := by rw [Shared.taken, Shared.context_setContext]
  others other differs := by
    rw [Shared.taken, Shared.context_setContext_other, if_neg (Ne.symm differs)]
  caches := rfl

theorem Inside.bind (inside : Inside context before now) (uri : KeyUri) :
    Inside context before
      (now.setContext context { now.context context with keyUrl := some uri }) where
  guard := by
    rw [Shared.context_setContext]
    exact inside.guard
  others other differs := by
    rw [Shared.context_setContext_other, if_neg (Ne.symm differs)]
    exact inside.others other differs
  caches := inside.caches

/-- Who came to a free guard leaves it free. -/
theorem Inside.release (inside : Inside context before now)
    (free : (before.context context).guard.isFree = true) :
    Passed context (now.context context).keyUrl before (now.setContext context
      { now.context context with guard := (now.context context).guard.release }) where
  url := by rw [Shared.context_setContext]
  free := by
    rw [Shared.context_setContext, inside.guard]
    simpa [Guard.isFree, Guard.arrive, Guard.release] using free
  others other differs := by
    rw [Shared.context_setContext_other, if_neg (Ne.symm differs)]
    exact inside.others other differs
  caches := inside.caches

variable {environment : Environment σ} {record : List Outward}

theorem leads_leave (environment : Environment σ) (record : List Outward)
    (inside : Inside context before now) (free : (before.context context).guard.isFree = true)
    (outcome : KeyOutcome) :
    Leads environment.observer (leave context outcome, now, record) outcome fun last =>
      last.1.outside = now.outside ∧
        Passed context (now.context context).keyUrl before last.1 ∧ last.2 = record := by
  refine .call (Environment.observer_silent rfl rfl record) ?_
  exact Routine.leads_done outcome ⟨rfl, inside.release free, rfl⟩

theorem leads_settle (environment : Environment σ) (record : List Outward)
    (inside : Inside context before now) (free : (before.context context).guard.isFree = true)
    (unbound : (now.context context).keyUrl = none) (outcome : KeyOutcome) :
    Leads environment.observer (settle context outcome, now, record) outcome fun last =>
      last.1.outside = now.outside ∧ Passed context outcome.toOption before last.1 ∧
        last.2 = record := by
  cases outcome with
  | error error =>
      have leaves := leads_leave environment record inside free (.error error)
      rwa [unbound] at leaves
  | ok uri =>
      refine .call (Environment.observer_silent rfl rfl record) ?_
      have leaves := leads_leave environment record (inside.bind uri) free (.ok uri)
      rwa [Shared.context_setContext] at leaves

/-- Who comes to the free guard of an unbound context sends one request for a key and nothing else.
The context is bound to the key that was created, if one was. -/
theorem leads_boundKey (unbound : (shared.context context).keyUrl = none)
    (free : (shared.context context).guard.isFree = true) {outcome : KeyOutcome}
    (made : createdUri (environment.send creation shared.outside).1 = outcome) :
    Leads environment.observer (Client.boundKey context, shared, []) outcome fun last =>
      last.1.outside = (environment.send creation shared.outside).2 ∧
        Passed context outcome.toOption shared last.1 ∧
          last.2 = [.inl (creation, (environment.send creation shared.outside).1)] := by
  have taken := inside_taken context shared
  have served : Inside context shared
      { shared.taken context with outside := (environment.send creation shared.outside).2 } :=
    ⟨taken.guard, taken.others, taken.caches⟩
  have again := environment.handle_keyUrl (Shared.keyUrl_taken unbound)
  subst made
  rw [Client.boundKey, bindOnce_eq, Client.createKey_eq]
  refine .call (Environment.observer_silent (environment.handle_keyUrl unbound) rfl []) ?_
  refine .call (Environment.observer_silent environment.handle_arrive rfl []) ?_
  refine .call (Environment.observer_silent (environment.handle_await_taken free) rfl []) ?_
  refine .call (Environment.observer_silent again rfl []) ?_
  refine .pause (.call rfl ?_)
  exact leads_settle environment _ served free (Shared.keyUrl_taken unbound) _

/-- Who comes to a bound context is given its key, and nothing goes out. -/
theorem leads_boundKey_bound {uri : KeyUri} (bound : (shared.context context).keyUrl = some uri) :
    Leads environment.observer (Client.boundKey context, shared, record) (.ok uri)
      (· = (shared, record)) := by
  rw [Client.boundKey, bindOnce_eq]
  refine .call (Environment.observer_silent (environment.handle_keyUrl bound) rfl record) ?_
  exact Routine.leads_done _ rfl

/-- Nobody gets past a guard that somebody else holds. -/
theorem not_ends_boundKey (unbound : (shared.context context).keyUrl = none)
    (held : (shared.context context).guard.isFree = false) {outcome : KeyOutcome}
    {last : Shared σ × List Outward} :
    ¬ Routine.Ends environment.observer (Client.boundKey context) (shared, record) outcome
      last := by
  have looked := Environment.observer_silent (environment.handle_keyUrl unbound) rfl record
  have arrived : environment.observer _ (.arrive context) (shared, record) =
      some ((shared.context context).guard.issued, shared.taken context, record) :=
    Environment.observer_silent environment.handle_arrive rfl record
  have waits : environment.observer _ (.await context (shared.context context).guard.issued)
      (shared.taken context, record) = none := by
    simp only [Handler.recording, environment.handle_await_held held, Option.map_none]
  intro ends
  rw [Client.boundKey, bindOnce_eq] at ends
  obtain ⟨_, _, handled, ends⟩ := Routine.ends_call ends
  cases looked.symm.trans handled
  obtain ⟨_, _, handled, ends⟩ := Routine.ends_call ends
  cases arrived.symm.trans handled
  obtain ⟨_, _, handled, -⟩ := Routine.ends_call ends
  cases waits.symm.trans handled

end Context

end FieldCrypt
