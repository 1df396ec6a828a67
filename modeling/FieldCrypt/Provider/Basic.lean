import FieldCrypt.Client.Basic
import FieldCrypt.Provider.Sealed

/-!
# Who encrypts the texts

A provider encrypts and decrypts single texts under a key. The sealing provider fetches the key
through a client and seals texts itself; an outside provider leaves both to a cipher of the
environment.
-/

namespace FieldCrypt

/-- Encrypt or decrypt a text under a key. -/
abbrev Transform := Direction → KeyHandle → String → Routine Effect (Except CryptoError String)

/-- Who encrypts the texts of a service. -/
inductive Provider where
  | sealing (client : Client)
  | outside (cipher : CipherId)
  deriving DecidableEq, Repr, Inhabited

namespace Provider

/-- The material of a key, fetched unless it is held. -/
def resolve (client : Client) (key : KeyHandle) :
    Routine Effect (Except CryptoError KeyMaterial) :=
  match key with
  | .held material => return .ok material
  | .named uri => do
    match ← client.resolveKey uri {} with
    | .ok material => return .ok material
    | .error error => return .error (.resolution error)

/-- Seal a text under a fresh nonce, or unseal it. -/
def applySeal (direction : Direction) (key : KeyMaterial) (text : String) :
    Routine Effect (Except CryptoError String) :=
  match direction with
  | .encrypt => do
    let nonce ← Routine.ask (.draw SealedText.nonceLength)
    return .ok (SealedText.write key nonce text)
  | .decrypt => return SealedText.read key text

def transform : Provider → Transform
  | .sealing client, direction, key, text => do
    match ← resolve client key with
    | .ok material => applySeal direction material text
    | .error error => return .error error
  | .outside cipher, direction, key, text => Routine.ask (.transform cipher direction key text)

end Provider

end FieldCrypt
