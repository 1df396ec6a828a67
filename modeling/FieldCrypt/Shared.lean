import FieldCrypt.Broker.Request
import FieldCrypt.Context.Basic
import FieldCrypt.Error
import FieldCrypt.Key.Cache
import FieldCrypt.Routine.Turn
import FieldCrypt.Store.Numbered

/-!
# What the work of a service acts on

Everything that the routines of a service share is reached by an `Effect`: the broker, random bytes
and outside ciphers through an `Environment` that may behave in any way, key caches and contexts by
their places among those that are `Shared`.
-/

namespace FieldCrypt

/-- Whether texts are encrypted or decrypted. -/
inductive Direction where
  | encrypt | decrypt
  deriving DecidableEq, Repr

/-- The places of caches and contexts, and the names of ciphers outside. -/
abbrev CacheId := Nat
abbrev ContextId := Nat
abbrev CipherId := Nat

/-- What a routine may ask for, with the type of the answer. -/
inductive Effect : Type → Type where
  /-- Send a request to the broker. -/
  | send (call : Broker.Call) : Effect (Except ClientError Broker.Reply)
  /-- Draw random bytes. -/
  | draw (count : Nat) : Effect (List UInt8)
  /-- Have a text encrypted or decrypted by a cipher outside. -/
  | transform (cipher : CipherId) (direction : Direction) (key : KeyHandle) (text : String) :
      Effect (Except CryptoError String)
  /-- Look a key up in a cache. -/
  | lookup (cache : CacheId) (uri : KeyUri) : Effect (Option KeyMaterial)
  /-- Hold the key that was answered for a URI in a cache. -/
  | remember (cache : CacheId) (requested : KeyUri) (key : KeyMaterial) : Effect Unit
  /-- A fresh unbound context. -/
  | openContext : Effect ContextId
  /-- The key URL of a context, if it is bound. -/
  | keyUrl (context : ContextId) : Effect (Option KeyUri)
  /-- Bind a context to the URL of a key. -/
  | bind (context : ContextId) (uri : KeyUri) : Effect Unit
  /-- Draw a ticket for the guard of a context. -/
  | arrive (context : ContextId) : Effect Nat
  /-- Wait until the guard admits a ticket. -/
  | await (context : ContextId) (ticket : Nat) : Effect Unit
  /-- Let the guard serve the next ticket. -/
  | release (context : ContextId) : Effect Unit

/-- How the outside answers: the broker, the source of random bytes, and the ciphers. -/
structure Environment (σ : Type) where
  send : Broker.Call → σ → Except ClientError Broker.Reply × σ
  draw : Nat → σ → List UInt8 × σ
  transform : CipherId → Direction → KeyHandle → String → σ → Except CryptoError String × σ

/-- The outside, the key caches and the contexts. -/
structure Shared (σ : Type) where
  outside : σ
  caches : Numbered KeyCache := {}
  contexts : Numbered Context := {}

namespace Shared

variable {σ : Type}

def cache (shared : Shared σ) (id : CacheId) : KeyCache := shared.caches.get id

def context (shared : Shared σ) (id : ContextId) : Context := shared.contexts.get id

def setCache (shared : Shared σ) (id : CacheId) (cache : KeyCache) : Shared σ :=
  { shared with caches := shared.caches.modify id fun _ => cache }

def setContext (shared : Shared σ) (id : ContextId) (context : Context) : Shared σ :=
  { shared with contexts := shared.contexts.modify id fun _ => context }

/-- Put a cache in a fresh place. -/
def addCache (shared : Shared σ) (cache : KeyCache) : CacheId × Shared σ :=
  (shared.caches.fresh, shared.setCache shared.caches.fresh cache)

/-- Put a context in a fresh place. -/
def addContext (shared : Shared σ) (context : Context) : ContextId × Shared σ :=
  (shared.contexts.fresh, shared.setContext shared.contexts.fresh context)

end Shared

/-- What the effects do. Only waiting for a guard can have to wait. -/
def Environment.handle {σ : Type} (environment : Environment σ) : Handler Effect (Shared σ)
  | _, .send call, shared =>
    let (outcome, outside) := environment.send call shared.outside
    some (outcome, { shared with outside })
  | _, .draw count, shared =>
    let (bytes, outside) := environment.draw count shared.outside
    some (bytes, { shared with outside })
  | _, .transform cipher direction key text, shared =>
    let (outcome, outside) := environment.transform cipher direction key text shared.outside
    some (outcome, { shared with outside })
  | _, .lookup id uri, shared =>
    let (key, cache) := (shared.cache id).get? uri
    some (key, shared.setCache id cache)
  | _, .remember id requested key, shared =>
    some ((), shared.setCache id ((shared.cache id).insert requested key))
  | _, .openContext, shared => some (shared.addContext {})
  | _, .keyUrl id, shared => some ((shared.context id).keyUrl, shared)
  | _, .bind id uri, shared =>
    some ((), shared.setContext id { shared.context id with keyUrl := some uri })
  | _, .arrive id, shared =>
    let (ticket, guard) := (shared.context id).guard.arrive
    some (ticket, shared.setContext id { shared.context id with guard })
  | _, .await id ticket, shared =>
    if (shared.context id).guard.admits ticket then some ((), shared) else none
  | _, .release id, shared =>
    some ((), shared.setContext id
      { shared.context id with guard := (shared.context id).guard.release })

end FieldCrypt
