import FieldCrypt.Shared

/-!
# Constant answers

A stand-in for a cipher that encrypts every text to one and decrypts every text to another.
-/

namespace FieldCrypt

/-- The two answers, and how often one was given. -/
structure Constant where
  ciphertext : String
  plaintext : String
  calls : Nat := 0
  deriving Repr, Inhabited

/-- Answer a question. -/
def Constant.transform (direction : Direction) (state : Constant) :
    Except CryptoError String × Constant :=
  let answer := match direction with
    | .encrypt => state.ciphertext
    | .decrypt => state.plaintext
  (.ok answer, { state with calls := state.calls + 1 })

end FieldCrypt
