import FieldCrypt.Proofs.Provider.Resealing
import FieldCrypt.Proofs.Text.Separator

/-!
# A mark names its key

No bar is among the digits that follow a mark, nor in any text that is read as hexadecimal. So the
last bar of a marked text ends its mark, whatever characters the URIs of the keys are made of, and
the text is read under the keys of one URI only.
-/

namespace FieldCrypt

namespace Hex

theorem bar_not_mem_encode (bytes : List UInt8) : '|' ∉ (encode bytes).toList := by
  intro there
  have digit := (lower_encode bytes).digits '|' there
  revert digit
  decide

/-- Nothing with a bar is read as hexadecimal. -/
theorem bar_not_mem_of_decode {text : String} {bytes : List UInt8}
    (read : decode text = .ok bytes) : '|' ∉ text.toList := by
  intro there
  apply bar_not_mem_encode bytes
  have lower : text.toLower.toList = text.toList.map Char.toLower := String.toList_map
  rw [← toLower_of_decode read, lower]
  exact List.mem_map.mpr ⟨'|', there, by decide⟩

end Hex

namespace Reversible

/-- A text is read from a mark and hexadecimal for its bytes. -/
theorem read_eq_ok_iff {key : KeyHandle} {ciphertext text : String} :
    read key ciphertext = .ok text ↔
      ∃ digits : String, ciphertext.toList = mark key ++ digits.toList ∧
        Hex.decode digits = .ok (Utf8.encode text) := by
  constructor
  · intro opened
    simp only [read] at opened
    split at opened
    · rename_i marked
      obtain ⟨rest, whole⟩ := List.isPrefixOf_iff_prefix.mp marked
      rw [← whole, List.drop_left] at opened
      refine ⟨String.ofList rest, by rw [String.toList_ofList, whole], ?_⟩
      split at opened
      · cases opened
      · rename_i bytes decoded
        split at opened
        · rename_i found
          cases opened
          rw [decoded, Utf8.encode_of_decode found]
        · cases opened
    · cases opened
  · rintro ⟨digits, whole, decoded⟩
    have marked : (mark key).isPrefixOf ciphertext.toList = true := by
      rw [whole, List.isPrefixOf_iff_prefix]
      exact List.prefix_append _ _
    simp only [read]
    rw [if_pos marked, whole, List.drop_left, String.ofList_toList, decoded]
    simp only [Utf8.decode_encode]

/-- Whatever is read of a marked text, it is read under the URI that it was marked with. -/
theorem uri_eq_of_read_write {key other : KeyHandle} {text opened : String}
    (read : read other (write key text) = .ok opened) : key.uri = other.uri := by
  obtain ⟨digits, whole, decoded⟩ := read_eq_ok_iff.mp read
  rw [toList_write, mark, mark, List.append_assoc, List.append_assoc] at whole
  have uris := append_cancel_of_last whole (Hex.bar_not_mem_encode _)
    (Hex.bar_not_mem_of_decode decoded)
  exact congrArg KeyUri.mk (String.toList_injective uris)

theorem read_write_eq_ok_iff {key other : KeyHandle} {text opened : String} :
    read other (write key text) = .ok opened ↔ key.uri = other.uri ∧ opened = text := by
  constructor
  · intro opens
    have same := uri_eq_of_read_write opens
    rw [read_write same.symm text] at opens
    exact ⟨same, (Except.ok.inj opens).symm⟩
  · rintro ⟨same, rfl⟩
    exact read_write same.symm opened

/-- A text that was marked with a key is read under every key of the same URI, which gives the text
back, and is an error under every other key. -/
theorem transform_decrypt_write_iff (state : Reversible) (key other : KeyHandle) (text : String) :
    (∀ opened, (transform .decrypt other (write key text) state).1 = .ok opened ↔
      key.uri = other.uri ∧ opened = text) ∧
    ((∃ error, (transform .decrypt other (write key text) state).1 = .error error) ↔
      key.uri ≠ other.uri) := by
  refine ⟨fun opened => read_write_eq_ok_iff, ?_⟩
  change (∃ error, read other (write key text) = .error error) ↔ _
  constructor
  · rintro ⟨error, failed⟩ same
    rw [read_write same.symm text] at failed
    cases failed
  · intro distinct
    cases outcome : read other (write key text) with
    | error error => exact ⟨error, rfl⟩
    | ok opened => exact (distinct (read_write_eq_ok_iff.mp outcome).1).elim

/-- The mark of one key may be how the mark of another begins. -/
example : read (.named ⟨"a"⟩) (write (.named ⟨"a|bc"⟩) "") =
    .error (.invalidCiphertext "Odd number of digits") := by decide

end Reversible

end FieldCrypt
