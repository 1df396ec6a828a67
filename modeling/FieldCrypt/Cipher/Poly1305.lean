import FieldCrypt.Cipher.Words

/-!
# Poly1305 tags

A message is read as a polynomial with one coefficient for each sixteen bytes, evaluated at the
clamped first half of the key modulo `2 ^ 130 - 5`; the second half of the key is added.
-/

namespace FieldCrypt.Cipher.Poly1305

/-- The prime modulus `2 ^ 130 - 5`. -/
def modulus : Nat := 0x3fffffffffffffffffffffffffffffffb

/-- The bits of the evaluation point that may be set. -/
def clampMask : Nat := 0x0ffffffc0ffffffc0ffffffc0fffffff

/-- The coefficients of a message, each with a bit above its last byte. -/
def coefficients : List UInt8 → List Nat
  | [] => []
  | byte :: rest =>
    natOfBytes (byte :: rest.take 15 ++ [1]) :: coefficients (rest.drop 15)
termination_by message => message.length
decreasing_by
  simp only [List.length_drop, List.length_cons]
  omega

/-- The sixteen bytes of the tag. -/
def tag (key message : List UInt8) : List UInt8 :=
  let point := natOfBytes (key.take 16) &&& clampMask
  let value := (coefficients message).foldl (fun sum c => (sum + c) * point % modulus) 0
  bytesOfNat 16 (value + natOfBytes (key.drop 16))

@[simp] theorem length_tag (key message : List UInt8) : (tag key message).length = 16 := by
  simp [tag]

end FieldCrypt.Cipher.Poly1305
