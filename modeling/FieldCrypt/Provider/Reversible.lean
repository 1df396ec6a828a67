import FieldCrypt.Text.Hex
import FieldCrypt.Shared

/-!
# Reversible markings

A stand-in for a cipher that hides nothing: a text is marked with the URI of its key, and only under
the same URI is it read back. Texts can be set to be refused.
-/

namespace FieldCrypt

/-- How often the stand-in was asked, and what it refuses. -/
structure Reversible where
  encrypts : Nat := 0
  decrypts : Nat := 0
  refused : List String := []
  deriving Repr, Inhabited

namespace Reversible

/-- The mark of a key. -/
def mark (key : KeyHandle) : List Char := key.uri.text.toList ++ ['|']

/-- A text marked with its key. -/
def write (key : KeyHandle) (text : String) : String :=
  String.ofList (mark key) ++ Hex.encode (Utf8.encode text)

/-- The text that was marked with this key. -/
def read (key : KeyHandle) (ciphertext : String) : Except CryptoError String :=
  let chars := ciphertext.toList
  if (mark key).isPrefixOf chars then
    match Hex.decode (String.ofList (chars.drop (mark key).length)) with
    | .error fault => .error (.invalidCiphertext fault.message)
    | .ok bytes =>
      match Utf8.decode bytes with
      | .ok text => .ok text
      | .error fault => .error (.invalidCiphertext fault.message)
  else .error (.decrypt ("not sealed under " ++ key.uri.text))

/-- What comes of a text. It does not depend on how often the stand-in was asked. -/
def outcome (refused : List String) : Direction → KeyHandle → String → Except CryptoError String
  | .encrypt, key, text =>
    if text ∈ refused then .error (.encrypt ("refused: " ++ text)) else .ok (write key text)
  | .decrypt, key, text => read key text

/-- Count the question. -/
def count (state : Reversible) : Direction → Reversible
  | .encrypt => { state with encrypts := state.encrypts + 1 }
  | .decrypt => { state with decrypts := state.decrypts + 1 }

/-- Answer a question. -/
def transform (direction : Direction) (key : KeyHandle) (text : String) (state : Reversible) :
    Except CryptoError String × Reversible :=
  (outcome state.refused direction key text, state.count direction)

/-- Refuse a text from now on. -/
def refuse (state : Reversible) (text : String) : Reversible :=
  { state with refused := text :: state.refused }

end Reversible

end FieldCrypt
