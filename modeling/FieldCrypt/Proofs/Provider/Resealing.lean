import FieldCrypt.Proofs.Provider.Unsealing
import Mathlib.Control.Monad.Basic

/-!
# Sealing undoes unsealing

Only what sealing produces is unsealed. A text that is read as hexadecimal is, in lower case, what
is written for its bytes; bytes that are decrypted are what is encrypted under the same key and
nonce, with the very tag that they came with; and only the bytes of a text are read as that text.
So there is no other ciphertext of a text for the same key and nonce, but for the case of its
digits.
-/

namespace FieldCrypt

namespace Utf8

theorem utf8Size_ofUInt8 : ∀ n : Fin 128, (Char.ofUInt8 (.ofNat n.val)).utf8Size = 1 := by decide

/-- A text whose bytes are all below 128 has one character for each byte. -/
theorem eq_ofList_of_ascii {text : String} (ascii : ∀ byte ∈ encode text, byte < 128) :
    text = String.ofList ((encode text).map Char.ofUInt8) := by
  apply encode_injective
  rw [encode_ofList_ascii, List.map_map]
  · refine (List.map_id (encode text)).symm.trans (List.map_congr_left fun byte _ => ?_)
    exact UInt8.ofNat_toNat.symm
  · intro c there
    obtain ⟨byte, member, rfl⟩ := List.mem_map.mp there
    have bound := UInt8.lt_iff_toNat_lt.mp (ascii byte member)
    have size := utf8Size_ofUInt8 ⟨byte.toNat, bound⟩
    rwa [UInt8.ofNat_toNat] at size

end Utf8

namespace Hex

/-- What is read as a digit is one character, and in lower case the digit that is written for its
value. -/
structure Digit (byte value : UInt8) : Prop where
  ascii : byte < 128
  small : value.toNat < 16
  toLower : (Char.ofUInt8 byte).toLower = digit value.toNat

theorem digit_of_value? {byte value : UInt8} (found : value? byte = some value) :
    Digit byte value := by
  have every : ∀ n : Fin 256, ∀ value ∈ value? (.ofNat n.val), .ofNat n.val < (128 : UInt8) ∧
      value.toNat < 16 ∧ (Char.ofUInt8 (.ofNat n.val)).toLower = digit value.toNat := by
    decide +kernel
  have here := every ⟨byte.toNat, byte.toNat_lt⟩
  rw [UInt8.ofNat_toNat] at here
  obtain ⟨ascii, small, lower⟩ := here value found
  exact ⟨ascii, small, lower⟩

/-- The digits of a byte, in lower case. -/
theorem pair_of_digits {high low h l : UInt8} (first : Digit high h) (second : Digit low l) :
    pair (16 * h + l) = [(Char.ofUInt8 high).toLower, (Char.ofUInt8 low).toLower] := by
  have upper := first.small
  have lower := second.small
  have sixteen : (16 : UInt8).toNat = 16 := rfl
  have value : (16 * h + l).toNat = 16 * h.toNat + l.toNat := by
    rw [UInt8.toNat_add, UInt8.toNat_mul, sixteen]
    omega
  have quotient : (16 * h.toNat + l.toNat) / 16 = h.toNat := by omega
  have remainder : (16 * h.toNat + l.toNat) % 16 = l.toNat := by omega
  rw [pair, value, quotient, remainder, first.toLower, second.toLower]

/-- Bytes that are read as hexadecimal are digits, in lower case those of what they are read as. -/
theorem flatMap_pair_of_decodePairs {position : Nat} {digits bytes : List UInt8}
    (read : decodePairs position digits = .ok bytes) :
    (∀ byte ∈ digits, byte < 128) ∧
      bytes.flatMap pair = digits.map fun byte => (Char.ofUInt8 byte).toLower := by
  induction position, digits using decodePairs.induct generalizing bytes with
  | case1 => cases read; simp
  | case2 => cases read
  | case3 position high low rest none =>
      rw [decodePairs, none] at read
      cases read
  | case4 position high low rest h found none =>
      rw [decodePairs, found, none] at read
      cases read
  | case5 position high low rest h l second first ih =>
      simp only [decodePairs, first, second] at read
      cases tail : decodePairs (position + 2) rest with
      | error fault =>
          rw [tail] at read
          cases read
      | ok bytes =>
          rw [tail] at read
          cases read
          obtain ⟨ascii, written⟩ := ih tail
          have high := digit_of_value? first
          have low := digit_of_value? second
          constructor
          · exact List.forall_mem_cons.mpr
              ⟨high.ascii, List.forall_mem_cons.mpr ⟨low.ascii, ascii⟩⟩
          · rw [List.flatMap_cons, pair_of_digits high low, written]
            rfl

/-- A text that is read as hexadecimal is in lower case what is written for its bytes. -/
theorem toLower_of_decode {text : String} {bytes : List UInt8} (read : decode text = .ok bytes) :
    text.toLower = encode bytes := by
  simp only [decode] at read
  split at read
  · cases read
  · obtain ⟨ascii, written⟩ := flatMap_pair_of_decodePairs read
    have chars := congrArg String.toList (Utf8.eq_ofList_of_ascii ascii)
    rw [String.toList_ofList] at chars
    have lower : text.toLower.toList = text.toList.map Char.toLower := String.toList_map
    apply String.toList_injective
    rw [lower, chars, List.map_map, encode, String.toList_ofList, written]
    rfl

end Hex

namespace Cipher.Sealed

/-- Bytes are decrypted to what they are the encryption of, and to nothing else. -/
theorem decrypt?_eq_some_iff {key nonce boxed plain : List UInt8} :
    decrypt? key nonce boxed = some plain ↔ boxed = encrypt key nonce plain := by
  constructor
  · intro opened
    simp only [decrypt?] at opened
    split at opened
    · rename_i tagged
      cases opened
      rw [encrypt, ChaCha20.apply_apply, ← tagged, List.take_append_drop]
    · cases opened
  · rintro rfl
    exact decrypt?_encrypt key nonce plain

end Cipher.Sealed

namespace SealedText

open Cipher

/-- A text is read from the bytes of a nonce and what the text is encrypted to under that nonce. -/
theorem read_eq_ok_iff {key : KeyMaterial} {ciphertext text : String} :
    read key ciphertext = .ok text ↔
      ∃ bytes, Hex.decode ciphertext = .ok bytes ∧ nonceLength ≤ bytes.length ∧
        bytes = bytes.take nonceLength ++
          Sealed.encrypt (cipherKey key) (bytes.take nonceLength) (Utf8.encode text) := by
  constructor
  · intro opened
    simp only [read] at opened
    split at opened
    · cases opened
    · rename_i bytes decoded
      split at opened
      · cases opened
      · rename_i long
        split at opened
        · cases opened
        · rename_i plain decrypted
          split at opened
          · rename_i found valid
            cases opened
            rw [Sealed.decrypt?_eq_some_iff, ← Utf8.encode_of_decode valid] at decrypted
            refine ⟨bytes, decoded, by omega, ?_⟩
            rw [← decrypted, List.take_append_drop]
          · cases opened
  · rintro ⟨bytes, decoded, long, whole⟩
    have encrypted : bytes.drop nonceLength =
        Sealed.encrypt (cipherKey key) (bytes.take nonceLength) (Utf8.encode text) :=
      List.append_cancel_left ((List.take_append_drop nonceLength bytes).trans whole)
    have length := congrArg List.length encrypted
    rw [List.length_drop, length_encrypt] at length
    simp only [read, decoded]
    rw [if_neg (by omega), Sealed.decrypt?_eq_some_iff.mpr encrypted]
    simp only [Utf8.decode_encode]

end SealedText

namespace Provider

variable {σ : Type} {environment : Environment σ}

/-- A ciphertext is unsealed to a text under a key exactly if it is hexadecimal text for a nonce of
twelve bytes and what the bytes of the text are encrypted to under that key and nonce, in lower case
or not. Whoever seals the text under that key and draws that nonce is then given the ciphertext in
lower case. -/
theorem applySeal_decrypt_eq_ok_iff (key : KeyMaterial) (ciphertext text : String)
    (shared : Shared σ) :
    Routine.run environment.handle (applySeal .decrypt key ciphertext) shared =
        some (.ok text, shared) ↔
      ∃ bytes, Hex.decode ciphertext = .ok bytes ∧ 12 ≤ bytes.length ∧
        ciphertext.toLower = Hex.encode (bytes.take 12 ++
          Cipher.Sealed.encrypt (SealedText.cipherKey key) (bytes.take 12) (Utf8.encode text)) ∧
        ∀ {τ : Type} (other : Environment τ) (later : Shared τ),
          (other.draw 12 later.outside).1 = bytes.take 12 →
          ∃ last, Routine.run other.handle (applySeal .encrypt key text) later =
            some (.ok ciphertext.toLower, last) := by
  rw [run_applySeal_decrypt]
  constructor
  · intro ran
    obtain ⟨bytes, decoded, long, whole⟩ := SealedText.read_eq_ok_iff.mp
      (congrArg Prod.fst (Option.some.inj ran))
    have lower : ciphertext.toLower = SealedText.write key (bytes.take 12) text :=
      (Hex.toLower_of_decode decoded).trans (congrArg Hex.encode whole)
    refine ⟨bytes, decoded, long, lower, fun other later drawn => ?_⟩
    refine ⟨{ later with outside := (other.draw 12 later.outside).2 }, ?_⟩
    rw [run_applySeal_encrypt, lower, ← drawn]
    rfl
  · rintro ⟨bytes, decoded, long, lower, -⟩
    -- What is written for bytes is read as these bytes, so there is one list of them for a text.
    have read := congrArg Hex.decode ((Hex.toLower_of_decode decoded).symm.trans lower)
    rw [Hex.decode_encode, Hex.decode_encode] at read
    have whole := Except.ok.inj read
    rw [SealedText.read_eq_ok_iff.mpr ⟨bytes, decoded, long, whole⟩]

/-- Digits of both cases are unsealed, and sealing under the same nonce writes them in lower case. -/
theorem applySeal_decrypt_eq_ok_iff_mixed_case :
    let key : KeyMaterial := ⟨⟨"u"⟩, .int 1⟩
    let ciphertext := "AB0102030405060708090a0bE722f2e038b343cb5f6856bb97951576737639a34d"
    let shared (nonce : List UInt8) : Shared Simulation :=
      ⟨{ broker := { host := "kms" }, draws := ⟨fun _ position => nonce.getD position 0, 0⟩ },
        {}, {}⟩
    Routine.run Simulation.environment.handle (applySeal .decrypt key ciphertext) (shared []) =
        some (.ok "café", shared []) ∧
      ∃ last, Routine.run Simulation.environment.handle (applySeal .encrypt key "café")
          (shared [0xAB, 1, 2, 3, 4, 5, 6, 7, 8, 9, 10, 11]) =
        some (.ok "ab0102030405060708090a0be722f2e038b343cb5f6856bb97951576737639a34d", last) := by
  intro key ciphertext shared
  let bytes : List UInt8 :=
    [0xAB, 1, 2, 3, 4, 5, 6, 7, 8, 9, 10, 11] ++ [0xE7, 0x22, 0xF2, 0xE0, 0x38] ++
      [0xB3, 0x43, 0xCB, 0x5F, 0x68, 0x56, 0xBB, 0x97, 0x95, 0x15, 0x76, 0x73, 0x76, 0x39, 0xA3,
        0x4D]
  have decoded : Hex.decode ciphertext = .ok bytes := by decide +kernel
  have whole : bytes = bytes.take 12 ++
      Cipher.Sealed.encrypt (SealedText.cipherKey key) (bytes.take 12) (Utf8.encode "café") := by
    decide +kernel
  have ran : Routine.run Simulation.environment.handle (applySeal .decrypt key ciphertext)
      (shared []) = some (.ok "café", shared []) := by
    rw [run_applySeal_decrypt, SealedText.read_eq_ok_iff.mpr ⟨bytes, decoded, by decide, whole⟩]
  obtain ⟨found, decoded', -, -, reseals⟩ :=
    (applySeal_decrypt_eq_ok_iff key ciphertext "café" (shared [])).mp ran
  cases decoded.symm.trans decoded'
  have lower : ciphertext.toLower =
      "ab0102030405060708090a0be722f2e038b343cb5f6856bb97951576737639a34d" := by
    decide +kernel
  rw [← lower]
  exact ⟨ran, reseals Simulation.environment _ (by decide)⟩

end Provider

end FieldCrypt
