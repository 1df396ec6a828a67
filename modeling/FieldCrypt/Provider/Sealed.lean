import FieldCrypt.Cipher.Blake3
import FieldCrypt.Cipher.Sealed
import FieldCrypt.Error
import FieldCrypt.Json.Printer
import FieldCrypt.Text.Hex

/-!
# Sealed texts

A text is sealed under the JSON web key of some key material: the cipher key is derived from the
compact text of the web key, so it stays the same when the key moves to another URI. What is written
down, in hexadecimal, is the nonce and the encrypted bytes with their tag.
-/

namespace FieldCrypt.SealedText

open Cipher

/-- The use that cipher keys are derived for. -/
def keyContext : String := "sealfield-local-v0-field-key"

def nonceLength : Nat := 12

def tagLength : Nat := 16

/-- The cipher key of some key material. -/
def cipherKey (key : KeyMaterial) : List UInt8 :=
  Blake3.deriveKey keyContext (Utf8.encode key.jwk.render)

/-- Seal a text. -/
def write (key : KeyMaterial) (nonce : List UInt8) (text : String) : String :=
  Hex.encode (nonce ++ Sealed.encrypt (cipherKey key) nonce (Utf8.encode text))

/-- The text that was sealed. -/
def read (key : KeyMaterial) (ciphertext : String) : Except CryptoError String :=
  match Hex.decode ciphertext with
  | .error fault => .error (.invalidCiphertext fault.message)
  | .ok bytes =>
    if bytes.length < nonceLength + tagLength then
      .error (.invalidCiphertext ("expected at least " ++ toString (nonceLength + tagLength) ++
        " bytes, got " ++ toString bytes.length))
    else
      match Sealed.decrypt? (cipherKey key) (bytes.take nonceLength) (bytes.drop nonceLength) with
      | none => .error (.decrypt "aead::Error")
      | some plain =>
        match Utf8.decode plain with
        | .ok text => .ok text
        | .error fault => .error (.invalidCiphertext fault.message)

end FieldCrypt.SealedText
