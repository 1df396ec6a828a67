import FieldCrypt.Cipher.ChaCha20
import FieldCrypt.Cipher.Poly1305

/-!
# Authenticated encryption

Bytes are combined with the ChaCha20 stream and followed by a Poly1305 tag of the result. The tag's
key is the first half of block zero. There is no associated data.
-/

namespace FieldCrypt.Cipher.Sealed

/-- Zero bytes up to the next multiple of sixteen. -/
def padding (length : Nat) : List UInt8 := List.replicate ((16 - length % 16) % 16) 0

/-- The tag of encrypted bytes: they are padded, then the two lengths follow. -/
def tagOf (key nonce bytes : List UInt8) : List UInt8 :=
  let tagKey := (ChaCha20.block key nonce 0).take 32
  Poly1305.tag tagKey
    (bytes ++ padding bytes.length ++ bytesOfNat 8 0 ++ bytesOfNat 8 bytes.length)

@[simp] theorem length_tagOf (key nonce bytes : List UInt8) :
    (tagOf key nonce bytes).length = 16 := by
  simp [tagOf]

/-- The encrypted bytes with their tag. -/
def encrypt (key nonce plain : List UInt8) : List UInt8 :=
  let bytes := ChaCha20.apply key nonce plain
  bytes ++ tagOf key nonce bytes

/-- The plain bytes, if the tag at the end is that of the bytes before it. -/
def decrypt? (key nonce boxed : List UInt8) : Option (List UInt8) :=
  let bytes := boxed.take (boxed.length - 16)
  if boxed.drop (boxed.length - 16) = tagOf key nonce bytes then
    some (ChaCha20.apply key nonce bytes)
  else none

/-- What was encrypted is decrypted under the same key and nonce. -/
@[simp] theorem decrypt?_encrypt (key nonce plain : List UInt8) :
    decrypt? key nonce (encrypt key nonce plain) = some plain := by
  simp [decrypt?, encrypt]

end FieldCrypt.Cipher.Sealed
