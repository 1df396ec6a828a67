/-!
# UTF-8 bytes of a text

`Utf8.encode` gives the bytes of a text as a list, and `Utf8.decode` reads bytes back. Bytes that
are not well formed are refused with the place and kind of their first fault.
-/

namespace FieldCrypt.Utf8

/-- The bytes of a text. -/
def encode (text : String) : List UInt8 := text.toByteArray.data.toList

/-- The first place where bytes stop being well formed. Either some bytes can begin no character, or
the bytes end in the middle of one. -/
inductive Fault where
  | invalid (length index : Nat)
  | incomplete (index : Nat)
  deriving DecidableEq, Repr

def Fault.message : Fault → String
  | .invalid length index =>
    "invalid utf-8 sequence of " ++ toString length ++ " bytes from index " ++ toString index
  | .incomplete index => "incomplete utf-8 byte sequence from index " ++ toString index

/-- The ranges that the bytes after a first byte must lie in. A byte that begins no character has
none. -/
def followers (first : UInt8) : Option (List (UInt8 × UInt8)) :=
  let any : UInt8 × UInt8 := (0x80, 0xBF)
  if first < 0x80 then some []
  else if first < 0xC2 then none
  else if first < 0xE0 then some [any]
  else if first = 0xE0 then some [(0xA0, 0xBF), any]
  else if first = 0xED then some [(0x80, 0x9F), any]
  else if first < 0xF0 then some [any, any]
  else if first = 0xF0 then some [(0x90, 0xBF), any, any]
  else if first < 0xF4 then some [any, any, any]
  else if first = 0xF4 then some [(0x80, 0x8F), any, any]
  else none

/-- The fault of the character begun at `index`, of which `read` bytes were right, if the next bytes
do not lie in their ranges. -/
def followFault? (index : Nat) : Nat → List (UInt8 × UInt8) → List UInt8 → Option Fault
  | _, [], _ => none
  | _, _ :: _, [] => some (.incomplete index)
  | read, (low, high) :: ranges, byte :: rest =>
    if low ≤ byte ∧ byte ≤ high then followFault? index (read + 1) ranges rest
    else some (.invalid read index)

/-- The first fault of the bytes, the first of them standing at `index`. The first `skip` bytes
belong to a character that was read already. -/
def faultFrom? : (index skip : Nat) → List UInt8 → Option Fault
  | _, _, [] => none
  | index, skip + 1, _ :: rest => faultFrom? (index + 1) skip rest
  | index, 0, byte :: rest =>
    match followers byte with
    | none => some (.invalid 1 index)
    | some ranges =>
      match followFault? index 1 ranges rest with
      | some fault => some fault
      | none => faultFrom? (index + 1) ranges.length rest

/-- The first fault of the bytes, if they have one. -/
def fault? (bytes : List UInt8) : Option Fault := faultFrom? 0 0 bytes

/-- The text that the bytes encode, or their first fault. -/
def decode (bytes : List UInt8) : Except Fault String :=
  match String.fromUTF8? ⟨bytes.toArray⟩ with
  | some text => .ok text
  | none => .error ((fault? bytes).getD (.incomplete 0))

theorem fromUTF8?_encode (text : String) :
    String.fromUTF8? ⟨(encode text).toArray⟩ = some text := by
  have same : (⟨(encode text).toArray⟩ : ByteArray) = text.toByteArray := rfl
  rw [same, String.fromUTF8?, dif_pos text.isValidUTF8]
  rfl

/-- Reading the bytes of a text gives the text. -/
@[simp] theorem decode_encode (text : String) : decode (encode text) = .ok text := by
  simp [decode, fromUTF8?_encode]

/-- Only the bytes of a text are read as that text. -/
theorem encode_of_decode {bytes : List UInt8} {text : String} (h : decode bytes = .ok text) :
    encode text = bytes := by
  unfold decode at h
  split at h
  · rename_i found read
    unfold String.fromUTF8? at read
    split at read
    · cases h
      cases read
      rfl
    · cases read
  · cases h

theorem encode_injective {first second : String} (h : encode first = encode second) :
    first = second := by
  have read := decode_encode first
  rw [h, decode_encode] at read
  cases read
  rfl

/-- The bytes of a text are those of its characters, one after another. -/
theorem encode_ofList (chars : List Char) :
    encode (String.ofList chars) = chars.flatMap String.utf8EncodeChar := by
  simp [encode, List.utf8Encode]

/-- A character that takes one byte is written as its code. -/
theorem encode_ofList_ascii (chars : List Char) (ascii : ∀ c ∈ chars, c.utf8Size = 1) :
    encode (String.ofList chars) = chars.map fun c => c.toUInt8 := by
  rw [encode_ofList]
  induction chars with
  | nil => rfl
  | cons c rest ih =>
    rw [List.flatMap_cons, String.utf8EncodeChar_eq_singleton (ascii c (by simp)),
      ih fun c h => ascii c (List.mem_cons_of_mem _ h)]
    rfl

end FieldCrypt.Utf8
