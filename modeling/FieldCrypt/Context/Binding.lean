import FieldCrypt.Client.Basic

/-!
# Binding a key to a context

A context gets its key the first time one is needed. Callers that come while it is being created
wait their turn behind the context's guard, look again, and find the key or try for themselves.
-/

namespace FieldCrypt

namespace Context

/-- Do some work while holding the guard of a context. It is released however the work ends. -/
def guarded {α : Type} (context : ContextId) (work : Routine Effect α) : Routine Effect α := do
  let ticket ← Routine.ask (.arrive context)
  let _ ← Routine.ask (.await context ticket)
  let result ← work
  let _ ← Routine.ask (.release context)
  return result

/-- The key URL of a context. When it has none, it is bound to the URI that `create` makes; when
that fails, the context stays unbound. -/
def bindOnce (context : ContextId) (create : Routine Effect (Except RecordError KeyUri)) :
    Routine Effect (Except RecordError KeyUri) := do
  match ← Routine.ask (.keyUrl context) with
  | some uri => return .ok uri
  | none =>
    guarded context do
      match ← Routine.ask (.keyUrl context) with
      | some uri => return .ok uri
      | none =>
        match ← create with
        | .ok uri =>
          let _ ← Routine.ask (.bind context uri)
          return .ok uri
        | .error error => return .error error

end Context

namespace Client

/-- Create one key. -/
def createKey : Routine Effect (Except RecordError KeyUri) := do
  match ← createKeys 1 with
  | .ok (key :: _) => return .ok key.uri
  | .ok [] => return .error .noUnboundKeys
  | .error error => return .error (.client error)

/-- Create one key and ask for it, so that its URI is the one it is kept under by now. The URI it
was created with stands when asking fails. -/
def createResolvedKey (client : Client) : Routine Effect (Except RecordError KeyUri) := do
  match ← createKey with
  | .ok created =>
    match ← client.resolveKey created {} with
    | .ok key => return .ok key.uri
    | .error _ => return .ok created
  | .error error => return .error error

/-- The key URL of a context, a key being created on first use. -/
def boundKey (context : ContextId) : Routine Effect (Except RecordError KeyUri) :=
  Context.bindOnce context createKey

/-- The key URL of a context, a key being created and resolved ahead of first use. -/
def prime (client : Client) (context : ContextId) : Routine Effect (Except RecordError KeyUri) :=
  Context.bindOnce context client.createResolvedKey

end Client

end FieldCrypt
