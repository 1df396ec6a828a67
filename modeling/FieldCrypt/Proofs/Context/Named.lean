import FieldCrypt.Proofs.Client.Effects
import FieldCrypt.Proofs.Routine.Phases

/-!
# Nothing without a name

No cache holds a key without a URI, and no context is bound to an empty one. An effect leaves that so
unless it puts such a key or URL there itself. A context that is bound stays bound, which can be
relied on as soon as it is known. Who waits at a guard makes no difference to any of this, so guards
let everybody in here.
-/

namespace FieldCrypt

open Broker

variable {σ α : Type}

namespace KeyCache

/-- All keys in the cache have a URI that is not empty. -/
def Named (cache : KeyCache) : Prop :=
  ∀ uri key, cache.keys.peek? uri = some key → key.uri.isEmpty = false

theorem Named.ofCapacity (capacity : Nat) : (ofCapacity capacity).Named := by
  intro uri key found
  cases found

theorem Named.get? {cache : KeyCache} (named : cache.Named) (uri : KeyUri) :
    (cache.get? uri).2.Named := by
  intro other key found
  rw [KeyCache.get?, Recency.peek?_touch] at found
  exact named other key found

theorem Named.insert {cache : KeyCache} (named : cache.Named) (requested : KeyUri)
    {key : KeyMaterial} (full : key.uri.isEmpty = false) : (cache.insert requested key).Named := by
  intro other held found
  rcases Recency.peek?_of_put found with ⟨-, rfl⟩ | before
  · exact full
  · exact named other held before

theorem Named.evict {cache : KeyCache} (named : cache.Named) (uri : KeyUri) :
    (cache.evict uri).Named := by
  intro other key found
  rw [KeyCache.evict, Recency.peek?_erase] at found
  split at found
  · cases found
  · exact named other key found

theorem Named.clear (cache : KeyCache) : cache.clear.Named := by
  intro uri key found
  cases found

end KeyCache

theorem Context.resumed_named (uri : KeyUri) {bound : KeyUri}
    (url : (Context.resumed uri).keyUrl = some bound) : bound.isEmpty = false := by
  rw [Context.resumed] at url
  split at url
  · cases url
  · rename_i full
    obtain rfl := Option.some.inj url
    exact Bool.eq_false_iff.mpr full

/-- The contexts that are known to be bound. -/
structure Known where
  bound : ContextId → Prop := fun _ => False

namespace Known

instance : Preorder Known where
  le before after := ∀ context, before.bound context → after.bound context
  le_refl _ _ := id
  le_trans _ _ _ first second context := second context ∘ first context

/-- One more context is known to be bound. -/
def add (known : Known) (context : ContextId) : Known :=
  ⟨fun other => other = context ∨ known.bound other⟩

theorem le_add (known : Known) (context : ContextId) : known ≤ known.add context :=
  fun _ => .inr

end Known

namespace Shared

/-- Keys in caches and URLs of contexts are not empty, and what is known to be bound is bound. -/
structure Named (known : Known) (shared : Shared σ) : Prop where
  caches : ∀ id, (shared.cache id).Named
  contexts : ∀ id uri, (shared.context id).keyUrl = some uri → uri.isEmpty = false
  bound : ∀ id, known.bound id → (shared.context id).keyUrl ≠ none

variable {known : Known} {shared : Shared σ}

theorem Named.start (outside : σ) : Named {} ({ outside } : Shared σ) where
  caches _ := .ofCapacity _
  contexts id uri url := by cases url
  bound id never := never.elim

theorem Named.setCache (named : shared.Named known) {id : CacheId} {cache : KeyCache}
    (full : cache.Named) : (shared.setCache id cache).Named known where
  caches other := by
    by_cases same : id = other
    · subst same
      rw [cache_setCache]
      exact full
    · rw [Shared.cache, Shared.setCache, Numbered.get_modify_of_ne _ same]
      exact named.caches other
  contexts := named.contexts
  bound := named.bound

/-- A context is given a URL that is not empty, or none if it is not known to be bound. -/
theorem Named.setContext (named : shared.Named known) {id : ContextId} {context : Context}
    (full : ∀ uri, context.keyUrl = some uri → uri.isEmpty = false)
    (stays : known.bound id → context.keyUrl ≠ none) :
    (shared.setContext id context).Named known where
  caches := named.caches
  contexts other uri url := by
    rw [context_setContext_other] at url
    split at url
    · exact full uri url
    · exact named.contexts other uri url
  bound other mine := by
    rw [context_setContext_other]
    split
    · rename_i same
      exact stays (same ▸ mine)
    · exact named.bound other mine

/-- A context changes in its guard alone. -/
theorem Named.setGuard (named : shared.Named known) (id : ContextId) (guard : Guard) :
    (shared.setContext id { shared.context id with guard }).Named known :=
  named.setContext (named.contexts id) (named.bound id)

/-- A context is bound to a URL that is not empty. -/
theorem Named.bind (named : shared.Named known) (id : ContextId) {uri : KeyUri}
    (full : uri.isEmpty = false) :
    (shared.setContext id { shared.context id with keyUrl := some uri }).Named (known.add id) where
  caches := named.caches
  contexts other uri' url := by
    rw [context_setContext_other] at url
    split at url
    · obtain rfl := Option.some.inj url
      exact full
    · exact named.contexts other uri' url
  bound other mine := by
    rw [context_setContext_other]
    split
    · exact Option.some_ne_none uri
    · rename_i differ
      rcases mine with rfl | mine
      · exact (differ rfl).elim
      · exact named.bound other mine

/-- In a fresh place there is a context that is unbound. -/
theorem context_fresh (shared : Shared σ) : shared.context shared.contexts.fresh = {} := by
  have beyond := List.getElem?_eq_none (Nat.le_refl shared.contexts.written.length)
  rw [Shared.context, Numbered.get, Numbered.fresh, List.getD_eq_getElem?_getD, beyond]
  rfl

/-- A context comes in a fresh place. -/
theorem Named.addContext (named : shared.Named known) {context : Context}
    (full : ∀ uri, context.keyUrl = some uri → uri.isEmpty = false) :
    (shared.addContext context).2.Named known := by
  refine named.setContext full fun mine => ?_
  have unbound := named.bound _ mine
  rw [context_fresh] at unbound
  exact (unbound rfl).elim

/-- It is seen that a context is bound. -/
theorem Named.add (named : shared.Named known) {id : ContextId}
    (bound : (shared.context id).keyUrl ≠ none) : shared.Named (known.add id) where
  caches := named.caches
  contexts := named.contexts
  bound other mine := by
    rcases mine with rfl | mine
    · exact bound
    · exact named.bound other mine

end Shared

/-- The effects of an environment, but that guards let everybody in. -/
def Environment.admitting (environment : Environment σ) : Handler Effect (Shared σ)
  | _, .await _ _, shared => some ((), shared)
  | _, effect, shared => environment.handle _ effect shared

theorem Environment.admitting_covers (environment : Environment σ) :
    Handler.Covers environment.admitting environment.handle := by
  intro β effect shared answered handled
  cases effect with
  | await context ticket =>
      rw [Environment.handle] at handled
      split at handled
      · exact handled
      · cases handled
  | _ => exact handled

namespace Effect

/-- The key that is put into a cache, or the URL that a context is bound to, is not empty. -/
def Fits : (β : Type) → Effect β → Prop
  | _, .remember _ _ key => key.uri.isEmpty = false
  | _, .bind _ uri => uri.isEmpty = false
  | _, _ => True

/-- What the answer to an effect says, and what is known with it. -/
def Tells (known : Known) : (β : Type) → Effect β → β → Prop
  | _, .lookup .., found => ∀ key, found = some key → key.uri.isEmpty = false
  | _, .keyUrl context, some uri => uri.isEmpty = false ∧ known.bound context
  | _, .keyUrl context, none => ¬ known.bound context
  | _, .bind context _, _ => known.bound context
  | _, _, _ => True

end Effect

/-- Every effect that fits leaves everything named. -/
theorem Shared.Named.handle {known : Known} {shared : Shared σ} (named : shared.Named known)
    (environment : Environment σ) {β : Type} {effect : Effect β} (fits : effect.Fits) :
    ∃ answer next after, environment.admitting _ effect shared = some (answer, next) ∧
      known ≤ after ∧ next.Named after ∧ Effect.Tells after _ effect answer := by
  have stays := le_refl known
  cases effect with
  | send call =>
      exact ⟨_, _, known, rfl, stays, ⟨named.caches, named.contexts, named.bound⟩, trivial⟩
  | draw count =>
      exact ⟨_, _, known, rfl, stays, ⟨named.caches, named.contexts, named.bound⟩, trivial⟩
  | transform cipher direction key text =>
      exact ⟨_, _, known, rfl, stays, ⟨named.caches, named.contexts, named.bound⟩, trivial⟩
  | lookup cache uri =>
      refine ⟨_, _, known, rfl, stays, named.setCache ((named.caches cache).get? uri), ?_⟩
      intro key found
      exact named.caches cache _ key found
  | remember cache requested key =>
      exact ⟨_, _, known, rfl, stays,
        named.setCache ((named.caches cache).insert requested fits), trivial⟩
  | openContext =>
      refine ⟨_, _, known, rfl, stays, named.addContext ?_, trivial⟩
      intro uri url
      cases url
  | keyUrl context =>
      cases url : (shared.context context).keyUrl with
      | some uri =>
          refine ⟨some uri, shared, known.add context, ?_, known.le_add context, ?_, ?_⟩
          · exact congrArg (fun url => some (url, shared)) url
          · exact named.add (url ▸ Option.some_ne_none uri)
          · exact ⟨named.contexts context uri url, .inl rfl⟩
      | none =>
          refine ⟨none, shared, known, ?_, stays, named, ?_⟩
          · exact congrArg (fun url => some (url, shared)) url
          · exact fun bound => named.bound context bound url
  | bind context uri =>
      exact ⟨_, _, known.add context, rfl, known.le_add context, named.bind context fits, .inl rfl⟩
  | arrive context => exact ⟨_, _, known, rfl, stays, named.setGuard context _, trivial⟩
  | await context ticket => exact ⟨_, _, known, rfl, stays, named, trivial⟩
  | release context => exact ⟨_, _, known, rfl, stays, named.setGuard context _, trivial⟩

/-- A routine that leaves everything named, and ends with a result that has the property. -/
abbrev Routine.Names (environment : Environment σ) (known : Known) (routine : Routine Effect α)
    (post : α → Prop) : Prop :=
  routine.Upholds environment.admitting Shared.Named known post

/-- An effect that fits may be asked for. What its answer says is known from then on. -/
theorem Routine.names_call {environment : Environment σ} {known : Known} {β : Type}
    {effect : Effect β} (fits : effect.Fits) {rest : β → Routine Effect α} {post : α → Prop}
    (onward : ∀ answer after, known ≤ after → Effect.Tells after _ effect answer →
      (rest answer).Names environment after post) :
    (Routine.call effect rest).Names environment known post := by
  intro now reached shared named
  obtain ⟨answer, next, after, handled, further, named', tells⟩ := named.handle environment fits
  exact ⟨answer, next, after, handled, further, named',
    onward answer after (reached.trans further) tells⟩

end FieldCrypt
