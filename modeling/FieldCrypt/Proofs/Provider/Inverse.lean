import FieldCrypt.Provider.Reversible
import FieldCrypt.Provider.Sealed

/-!
# What was written is read back

A marked text is read under every key of the same URI, whatever characters the URI is made of, and a
sealed text under every key with the same web key. Neither is ever empty.
-/

namespace FieldCrypt

namespace Reversible

theorem toList_write (key : KeyHandle) (text : String) :
    (write key text).toList = mark key ++ (Hex.encode (Utf8.encode text)).toList := by
  simp [write]

theorem write_ne_empty (key : KeyHandle) (text : String) : write key text ≠ "" := by
  intro empty
  have chars := congrArg String.toList empty
  rw [toList_write, mark] at chars
  simp at chars

theorem read_write {key other : KeyHandle} (same : other.uri = key.uri) (text : String) :
    read other (write key text) = .ok text := by
  have marks : mark other = mark key := by rw [mark, same, mark]
  have begins : (mark key).isPrefixOf (write key text).toList = true := by
    rw [toList_write, List.isPrefixOf_iff_prefix]
    exact List.prefix_append _ _
  have rest : String.ofList ((write key text).toList.drop (mark key).length) =
      Hex.encode (Utf8.encode text) := by
    rw [toList_write, List.drop_left, String.ofList_toList]
  simp only [read, marks]
  rw [if_pos begins, rest]
  simp only [Hex.decode_encode, Utf8.decode_encode]

end Reversible

namespace SealedText

open Cipher

theorem length_encrypt (key nonce plain : List UInt8) :
    (Sealed.encrypt key nonce plain).length = plain.length + tagLength := by
  simp [Sealed.encrypt, tagLength]

/-- What is written down for a text is the nonce and the encrypted text with its tag. -/
theorem decode_write (key : KeyMaterial) (nonce : List UInt8) (text : String) :
    Hex.decode (write key nonce text) =
      .ok (nonce ++ Sealed.encrypt (cipherKey key) nonce (Utf8.encode text)) :=
  Hex.decode_encode _

theorem write_ne_empty (key : KeyMaterial) (nonce : List UInt8) (text : String) :
    write key nonce text ≠ "" := by
  intro empty
  have decoded := decode_write key nonce text
  rw [empty] at decoded
  have bytes := congrArg List.length (Except.ok.inj decoded)
  rw [List.length_append, length_encrypt] at bytes
  simp [tagLength] at bytes

theorem cipherKey_congr {key other : KeyMaterial} (same : other.jwk = key.jwk) :
    cipherKey other = cipherKey key := by
  rw [cipherKey, same, cipherKey]

/-- What is read does not depend on the URI of a key. -/
theorem read_congr {key other : KeyMaterial} (same : other.jwk = key.jwk) :
    read other = read key := by
  funext text
  rw [read, cipherKey_congr same, read]

theorem read_write {key other : KeyMaterial} (same : other.jwk = key.jwk) {nonce : List UInt8}
    (fits : nonce.length = nonceLength) (text : String) :
    read other (write key nonce text) = .ok text := by
  have long : ¬(nonce ++ Sealed.encrypt (cipherKey key) nonce (Utf8.encode text)).length <
      nonceLength + tagLength := by
    rw [List.length_append, length_encrypt, fits]
    omega
  rw [read_congr same]
  simp only [read, decode_write]
  rw [if_neg long, ← fits, List.take_left, List.drop_left]
  simp only [Sealed.decrypt?_encrypt, Utf8.decode_encode]

end SealedText

end FieldCrypt
