import FieldCrypt.Record.Encryption

/-!
# The encryption service

A service opens contexts and encrypts and decrypts records through one client and one provider.
-/

namespace FieldCrypt

/-- Settings of a service. -/
structure ServiceConfig where
  client : ClientConfig := {}
  /-- Create and resolve the key of a context when the context is opened. -/
  primeContexts : Bool := false
  deriving DecidableEq, Repr, Inhabited

instance : Wire ServiceConfig where
  encode config := .record [
    ("kms", some (encode config.client)),
    ("primeContexts", some (encode config.primeContexts))]
  decode? json := do
    let fields ← json.fields? ["kms", "primeContexts"]
    return {
      client := ← Json.defaulted fields "kms" {}
      primeContexts := ← Json.defaulted fields "primeContexts" false }

/-- A client, who encrypts its texts, and the settings. The client keeps the settings it was made
with. -/
structure Service where
  client : Client := {}
  provider : Provider := .outside 0
  config : ServiceConfig := {}
  deriving DecidableEq, Repr, Inhabited

namespace Service

variable {σ R : Type} [Protected R]

/-- A service with a client of its own that leaves texts to a cipher outside. -/
def create (config : ServiceConfig) (cipher : CipherId) (shared : Shared σ) : Service × Shared σ :=
  let (client, shared) := Client.create config.client shared
  ({ client, provider := .outside cipher, config }, shared)

/-- A service with a client of its own that seals texts itself. -/
def createSealing (config : ServiceConfig) (shared : Shared σ) : Service × Shared σ :=
  let (client, shared) := Client.create config.client shared
  ({ client, provider := .sealing client, config }, shared)

/-- An outcome as the service reports it. -/
def reported {α : Type} (result : Except RecordError Unit × α) : Except ServiceError Unit × α :=
  (result.1.mapError .record, result.2)

/-- Open a context for a new resource. -/
def openContext (service : Service) : Routine Effect (Except ServiceError ContextId) := do
  let context ← Routine.ask .openContext
  if service.config.primeContexts then
    match ← service.client.prime context with
    | .ok _ => return .ok context
    | .error error => return .error (.record error)
  else return .ok context

/-- Encrypt the fields of a record under the key of a context. -/
def encrypt (service : Service) (context : ContextId) (record : R) :
    Routine Effect (Except ServiceError Unit × R) := do
  return reported (← Protected.encrypt service.provider.transform context record)

/-- Decrypt the fields of a record. -/
def decrypt (service : Service) (record : R) : Routine Effect (Except ServiceError Unit × R) := do
  return reported (← Protected.decrypt service.provider.transform record)

/-- Decrypt the fields of some records. -/
def decryptAll (service : Service) (records : List R) :
    Routine Effect (Except ServiceError Unit × List R) := do
  return reported (← Protected.decryptAll service.provider.transform records)

end Service

end FieldCrypt
