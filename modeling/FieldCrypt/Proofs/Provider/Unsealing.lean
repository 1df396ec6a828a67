import FieldCrypt.Proofs.Provider.Inverse
import FieldCrypt.Proofs.Routine.Run
import FieldCrypt.Provider.Basic
import FieldCrypt.Simulation

/-!
# Unsealing undoes sealing

What a text is sealed to is written in lower-case hexadecimal: the nonce, a byte for each byte of the
text, and the tag. Every key with the same web key unseals it, whatever bytes were drawn for the
nonce and wherever the key has moved to.
-/

namespace FieldCrypt

namespace Hex

/-- The digits of lower-case hexadecimal text. -/
def lowerDigits : List Char := "0123456789abcdef".toList

/-- The text writes these bytes down, with two lower-case digits each. -/
structure Lower (text : String) (bytes : List UInt8) : Prop where
  length : text.length = 2 * bytes.length
  digits : ∀ c ∈ text.toList, c ∈ lowerDigits
  decode : Hex.decode text = .ok bytes

theorem digit_mem_lowerDigits : ∀ n : Fin 16, digit n.val ∈ lowerDigits := by decide

theorem mem_lowerDigits_of_pair {byte : UInt8} {c : Char} (there : c ∈ pair byte) :
    c ∈ lowerDigits := by
  have bound := byte.toNat_lt
  simp only [pair, List.mem_cons, List.not_mem_nil, or_false] at there
  rcases there with rfl | rfl
  · exact digit_mem_lowerDigits ⟨byte.toNat / 16, by omega⟩
  · exact digit_mem_lowerDigits ⟨byte.toNat % 16, by omega⟩

theorem lower_encode (bytes : List UInt8) : Lower (encode bytes) bytes where
  length := by
    rw [encode, String.length_ofList]
    exact length_flatMap_pair bytes
  digits c there := by
    rw [encode, String.toList_ofList, List.mem_flatMap] at there
    obtain ⟨byte, -, there⟩ := there
    exact mem_lowerDigits_of_pair there
  decode := decode_encode bytes

end Hex

/-- As many bytes are drawn as are asked for. -/
def Environment.Fills {σ : Type} (environment : Environment σ) : Prop :=
  ∀ count outside, (environment.draw count outside).1.length = count

theorem Simulation.environment_fills : Simulation.environment.Fills :=
  fun count simulation => simulation.draws.length_take count

namespace SealedText

open Cipher

/-- What is written down for a text has the nonce, a byte for each byte of the text, and the tag. -/
theorem lower_write (key : KeyMaterial) {nonce : List UInt8} (fits : nonce.length = nonceLength)
    (text : String) :
    ∃ bytes, Hex.Lower (write key nonce text) bytes ∧
      bytes.length = nonceLength + text.utf8ByteSize + tagLength ∧
      bytes.take nonceLength = nonce := by
  refine ⟨_, Hex.lower_encode _, ?_, ?_⟩
  · have bytes : (Utf8.encode text).length = text.utf8ByteSize := rfl
    rw [List.length_append, length_encrypt, fits, bytes, Nat.add_assoc]
  · rw [← fits, List.take_left]

end SealedText

namespace Provider

variable {σ : Type} {environment : Environment σ}

theorem run_applySeal_encrypt (key : KeyMaterial) (text : String) (shared : Shared σ) :
    Routine.run environment.handle (applySeal .encrypt key text) shared =
      let drawn := environment.draw SealedText.nonceLength shared.outside
      some (.ok (SealedText.write key drawn.1 text), { shared with outside := drawn.2 }) := by
  rw [applySeal, Routine.run_bind, Routine.ask, Routine.run_call rfl, Routine.run_done,
    Option.bind_some, Routine.pure_eq, Routine.run_done]

theorem run_applySeal_decrypt (key : KeyMaterial) (text : String) (shared : Shared σ) :
    Routine.run environment.handle (applySeal .decrypt key text) shared =
      some (SealedText.read key text, shared) := by
  rw [applySeal, Routine.pure_eq, Routine.run_done]

/-- A text is sealed to lower-case hexadecimal text for twelve bytes that were drawn, the bytes of
the text and sixteen more. Whenever that is unsealed under a key with the same web key, whatever URI
this key has, it comes to the text. -/
theorem applySeal_decrypt_encrypt (fills : environment.Fills) {key other : KeyMaterial}
    (same : other.jwk = key.jwk) (text : String) (shared later : Shared σ) :
    ∃ sealed last bytes,
      Routine.run environment.handle (applySeal .encrypt key text) shared =
        some (.ok sealed, last) ∧
      Hex.Lower sealed bytes ∧ bytes.length = 12 + text.utf8ByteSize + 16 ∧
      bytes.take 12 = (environment.draw 12 shared.outside).1 ∧
      Routine.run environment.handle (applySeal .decrypt other sealed) later =
        some (.ok text, later) := by
  have fits := fills SealedText.nonceLength shared.outside
  obtain ⟨bytes, lower, long, begins⟩ := SealedText.lower_write key fits text
  refine ⟨_, _, bytes, run_applySeal_encrypt key text shared, lower, long, begins, ?_⟩
  rw [run_applySeal_decrypt, SealedText.read_write same fits]

/-- A text of nine bytes is sealed under a key that is then kept elsewhere, and unsealed after other
bytes were drawn. -/
theorem applySeal_decrypt_encrypt_elsewhere :
    let jwk := Json.record [("kty", some (.str "oct")), ("k", some (.str "00ff"))]
    let old : KeyMaterial := ⟨⟨"kms://kms/keys/old"⟩, jwk⟩
    let new : KeyMaterial := ⟨⟨"kms://kms/keys/new"⟩, jwk⟩
    let shared (taken : Nat) : Shared Simulation :=
      ⟨{ broker := { host := "kms" }, draws := ⟨fun _ position => UInt8.ofNat position, taken⟩ },
        {}, {}⟩
    ∃ sealed last,
      Routine.run Simulation.environment.handle (applySeal .encrypt old "café ☕") (shared 0) =
        some (.ok sealed, last) ∧
      sealed.length = 74 ∧
      Routine.run Simulation.environment.handle (applySeal .decrypt new sealed) (shared 1) =
        some (.ok "café ☕", shared 1) := by
  intro jwk old new shared
  have same : new.jwk = old.jwk := rfl
  obtain ⟨sealed, last, bytes, ran, lower, long, -, opens⟩ :=
    applySeal_decrypt_encrypt Simulation.environment_fills same "café ☕" (shared 0) (shared 1)
  have size : "café ☕".utf8ByteSize = 9 := by decide
  refine ⟨sealed, last, ran, ?_, opens⟩
  rw [lower.length, long, size]

end Provider

end FieldCrypt
