import FieldCrypt.Broker.Reply

/-!
# Errors

Each layer has its own errors and holds those of the layer below: a broker failure or a request that
could not be sent is a `ClientError`, the failure of one text a `CryptoError`, that of a record a
`RecordError`, that of the service a `ServiceError`. `failure?` finds the broker failure behind an
error.
-/

namespace FieldCrypt

open Broker (Failure)

/-- The arguments that a request cannot do without. -/
inductive Argument where
  | uri | resourceUri | keyUri | authId | keyId
  deriving DecidableEq, Repr, Inhabited

def Argument.name : Argument → String
  | uri => "options.uri"
  | resourceUri => "resourceUri"
  | keyUri => "keyUri"
  | authId => "authId"
  | keyId => "keyId"

/-- What is wrong with a key in a reply. -/
inductive KeyFault where
  | missingUri
  | malformed (detail : String)
  deriving DecidableEq, Repr

def KeyFault.message : KeyFault → String
  | missingUri => "key entry has no uri"
  | malformed detail => "malformed key material: " ++ detail

/-- Why the client has no answer. -/
inductive ClientError where
  /-- An argument is empty. Nothing was sent. -/
  | missing (argument : Argument)
  /-- The broker reported a failure. -/
  | broker (failure : Failure)
  /-- The request did not get through. -/
  | transport (detail : String)
  /-- The reply lacks what was asked for. -/
  | unusable (detail : String)
  /-- A key in the reply cannot be used. -/
  | key (fault : KeyFault)
  deriving DecidableEq, Repr

namespace ClientError

def message : ClientError → String
  | missing argument => "\x60" ++ argument.name ++ "\x60 is required"
  | broker failure => failure.message
  | transport detail => "transport error: " ++ detail
  | unusable detail => "invalid broker response: " ++ detail
  | key fault => "core error: " ++ fault.message

/-- The failure that the broker reported. -/
def failure? : ClientError → Option Failure
  | broker failure => some failure
  | _ => none

end ClientError

/-- Why a text was not encrypted or decrypted. -/
inductive CryptoError where
  /-- The key could not be resolved. -/
  | resolution (error : ClientError)
  | invalidKey (detail : String)
  | encrypt (detail : String)
  | decrypt (detail : String)
  | invalidCiphertext (detail : String)
  deriving DecidableEq, Repr

namespace CryptoError

def message : CryptoError → String
  | resolution error => "key resolution failed: " ++ error.message
  | invalidKey detail => "invalid key: " ++ detail
  | encrypt detail => "encryption failed: " ++ detail
  | decrypt detail => "decryption failed: " ++ detail
  | invalidCiphertext detail => "invalid ciphertext: " ++ detail

def failure? : CryptoError → Option Failure
  | resolution error => error.failure?
  | _ => none

end CryptoError

/-- Why a record was not encrypted or decrypted. -/
inductive RecordError where
  /-- No key could be bound. -/
  | client (error : ClientError)
  /-- The text of a field failed. -/
  | field (name : String) (error : CryptoError)
  /-- The broker created no key. -/
  | noUnboundKeys
  deriving DecidableEq, Repr

namespace RecordError

def message : RecordError → String
  | client error => error.message
  | field name error => "crypto failure on field \x60" ++ name ++ "\x60: " ++ error.message
  | noUnboundKeys => "broker returned no unbound keys"

def failure? : RecordError → Option Failure
  | client error => error.failure?
  | field _ error => error.failure?
  | noUnboundKeys => none

end RecordError

/-- Why a service has no answer. It adds nothing to the text of the error it holds. -/
inductive ServiceError where
  | client (error : ClientError)
  | record (error : RecordError)
  deriving DecidableEq, Repr

namespace ServiceError

def message : ServiceError → String
  | client error => error.message
  | record error => error.message

def failure? : ServiceError → Option Failure
  | client error => error.failure?
  | record error => error.failure?

end ServiceError

end FieldCrypt
