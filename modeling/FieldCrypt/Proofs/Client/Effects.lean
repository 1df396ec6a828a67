import FieldCrypt.Context.Binding
import FieldCrypt.Proofs.Routine.Effects

/-!
# What a client does to what it shares

A client sends requests and uses its cache. It has nothing to do with contexts, and it never waits
for anybody.
-/

namespace FieldCrypt

variable {σ α : Type}

namespace Shared

@[simp] theorem context_setContext (shared : Shared σ) (id : ContextId) (context : Context) :
    (shared.setContext id context).context id = context :=
  Numbered.get_modify_self shared.contexts id fun _ => context

theorem context_setContext_other (shared : Shared σ) (id other : ContextId) (context : Context) :
    (shared.setContext id context).context other =
      if id = other then context else shared.context other :=
  Numbered.get_modify shared.contexts id other fun _ => context

@[simp] theorem cache_setCache (shared : Shared σ) (id : CacheId) (cache : KeyCache) :
    (shared.setCache id cache).cache id = cache :=
  Numbered.get_modify_self shared.caches id fun _ => cache

theorem cache_setCache_other (shared : Shared σ) (id other : CacheId) (cache : KeyCache) :
    (shared.setCache id cache).cache other = if id = other then cache else shared.cache other :=
  Numbered.get_modify shared.caches id other fun _ => cache

end Shared

/-- The effects that clients ask for: requests, and the use of a cache. -/
def Effect.OfClient : (β : Type) → Effect β → Prop
  | _, .send _ | _, .lookup .. | _, .remember .. => True
  | _, _ => False

/-- The effects that are requests. -/
def Effect.IsSend : (β : Type) → Effect β → Prop
  | _, .send _ => True
  | _, _ => False

theorem Effect.IsSend.ofClient {β : Type} {effect : Effect β} (isSend : effect.IsSend) :
    effect.OfClient := by
  cases effect with
  | send call => trivial
  | _ => exact isSend.elim

/-- Every effect is handled at once, except that a caller may have to wait for a guard. -/
theorem Environment.handle_ofClient (environment : Environment σ) {β : Type} {effect : Effect β}
    (ofClient : effect.OfClient) (shared : Shared σ) :
    ∃ answer next, environment.handle _ effect shared = some (answer, next) ∧
      next.contexts = shared.contexts := by
  cases effect with
  | send call => exact ⟨_, _, rfl, rfl⟩
  | lookup cache uri => exact ⟨_, _, rfl, rfl⟩
  | remember cache requested key => exact ⟨_, _, rfl, rfl⟩
  | _ => exact ofClient.elim

/-- The steps of a client leave all contexts alone. -/
theorem Routine.Step.contexts_eq {environment : Environment σ}
    {start last : Routine Effect α × Shared σ} (step : Step environment.handle start last)
    (only : start.1.Only Effect.OfClient) : last.2.contexts = start.2.contexts := by
  induction step with
  | pause rest state => rfl
  | @call _ _ _ _ state next answer handled =>
      obtain ⟨_, _, handled', same⟩ := environment.handle_ofClient only.1 state
      rw [handled] at handled'
      cases handled'
      exact same
  | left right rest _ ih => exact ih only.1
  | right left rest _ ih => exact ih only.2.1
  | join b c rest state => rfl

theorem Routine.Steps.contexts_eq {environment : Environment σ}
    {start last : Routine Effect α × Shared σ} (steps : Steps environment.handle start last)
    (only : start.1.Only Effect.OfClient) : last.2.contexts = start.2.contexts := by
  induction steps with
  | refl => rfl
  | tail before step ih => exact (step.contexts_eq (only.steps before)).trans ih

namespace Client

open Broker

theorem send_serially (request : Request) (options : Option Options) :
    (send request options).Serially Effect.IsSend :=
  ⟨trivial, fun _ => trivial⟩

theorem exchange_serially (request : Request) : (exchange request).Serially Effect.IsSend :=
  (send_serially request none).bind fun _ => trivial

theorem fetch_serially (uri : KeyUri) (options : Option Options) :
    (fetch uri options).Serially Effect.IsSend := by
  refine (send_serially _ options).bind fun first => ?_
  cases redirect? first with
  | none => trivial
  | some target => exact (send_serially _ options).bind fun _ => trivial

theorem fetchInto_serially (cache : CacheId) (uri : KeyUri) :
    (fetchInto cache uri).Serially Effect.OfClient := by
  refine ((fetch_serially uri none).mono fun _ _ => Effect.IsSend.ofClient).bind fun outcome => ?_
  cases outcome with
  | ok key => exact ⟨trivial, fun _ => trivial⟩
  | error error => trivial

theorem resolveKey_serially (client : Client) (uri : KeyUri) (options : Options) :
    (client.resolveKey uri options).Serially Effect.OfClient := by
  unfold resolveKey
  split
  · trivial
  · split
    · refine ⟨trivial, fun found => ?_⟩
      cases found with
      | some key => trivial
      | none => exact fetchInto_serially _ uri
    · exact (fetch_serially uri _).mono fun _ _ => Effect.IsSend.ofClient

theorem resolveKey_only (client : Client) (uri : KeyUri) (options : Options) :
    (client.resolveKey uri options).Only Effect.OfClient :=
  (client.resolveKey_serially uri options).only

/-- A client that acts for somebody else has nothing to do with any cache. -/
theorem resolveKey_only_send (client : Client) (uri : KeyUri) {options : Options}
    (other : options.onBehalfOf ≠ none) : (client.resolveKey uri options).Only Effect.IsSend := by
  unfold resolveKey
  split
  · trivial
  · split
    · rename_i without _
      obtain ⟨user, acts⟩ := Option.ne_none_iff_exists'.mp other
      rw [Options.sent?, acts] at without
      cases without
    · exact (fetch_serially uri _).only

theorem createKeys_serially (count : UInt32) : (createKeys count).Serially Effect.OfClient := by
  refine ((exchange_serially _).mono fun _ _ => Effect.IsSend.ofClient).bind fun outcome => ?_
  cases outcome <;> trivial

theorem createKey_serially : createKey.Serially Effect.OfClient := by
  refine (createKeys_serially 1).bind fun outcome => ?_
  match outcome with
  | .ok (_ :: _) | .ok [] | .error _ => trivial

theorem createResolvedKey_serially (client : Client) :
    client.createResolvedKey.Serially Effect.OfClient := by
  refine createKey_serially.bind fun outcome => ?_
  cases outcome with
  | ok created =>
      refine (client.resolveKey_serially created {}).bind fun resolved => ?_
      cases resolved <;> trivial
  | error error => trivial

end Client

end FieldCrypt
