import FieldCrypt.Text.Utf8

/-!
# Hexadecimal text

Bytes are written with two lower-case digits each. Reading accepts digits of both cases and refuses
a text at its first byte that is no digit, after a text of odd length.
-/

namespace FieldCrypt.Hex

/-- The lower-case digit of a value below sixteen. -/
def digit (value : Nat) : Char := Char.ofNat (if value < 10 then 48 + value else 87 + value)

/-- The value of a digit, given as a byte of text. -/
def value? (byte : UInt8) : Option UInt8 :=
  if 48 ≤ byte ∧ byte ≤ 57 then some (byte - 48)
  else if 65 ≤ byte ∧ byte ≤ 70 then some (byte - 55)
  else if 97 ≤ byte ∧ byte ≤ 102 then some (byte - 87)
  else none

/-- The two digits of a byte. -/
def pair (byte : UInt8) : List Char := [digit (byte.toNat / 16), digit (byte.toNat % 16)]

/-- Two lower-case digits for each byte. -/
def encode (bytes : List UInt8) : String := String.ofList (bytes.flatMap pair)

/-- Why a text is not the hexadecimal form of any bytes. -/
inductive Fault where
  | oddLength
  | badByte (byte : UInt8) (position : Nat)
  deriving DecidableEq, Repr

/-- A byte shown as the character of that code point, between single quotes. Characters that do not
show are written by their escape. -/
def showByte (byte : UInt8) : String :=
  let code := byte.toNat
  let shown : List Char :=
    if code = 0 then ['\\', '0']
    else if code = 9 then ['\\', 't']
    else if code = 10 then ['\\', 'n']
    else if code = 13 then ['\\', 'r']
    else if code = 39 then ['\\', '\'']
    else if code = 92 then ['\\', '\\']
    else if code < 32 ∨ (127 ≤ code ∧ code ≤ 160) ∨ code = 173 then
      ['\\', 'u', '\x7b'] ++ Nat.toDigits 16 code ++ ['\x7d']
    else [Char.ofNat code]
  String.ofList (['\''] ++ shown ++ ['\''])

def Fault.message : Fault → String
  | .oddLength => "Odd number of digits"
  | .badByte byte position =>
    "Invalid character " ++ showByte byte ++ " at position " ++ toString position

/-- Read the digits two by two, the first of them standing at `position`. -/
def decodePairs : Nat → List UInt8 → Except Fault (List UInt8)
  | _, [] => .ok []
  | _, [_] => .error .oddLength
  | position, high :: low :: rest =>
    match value? high, value? low with
    | none, _ => .error (.badByte high position)
    | some _, none => .error (.badByte low (position + 1))
    | some h, some l => (decodePairs (position + 2) rest).map ((16 * h + l) :: ·)

/-- The bytes that a text writes down. The length that must be even is counted in bytes. -/
def decode (text : String) : Except Fault (List UInt8) :=
  let bytes := Utf8.encode text
  if bytes.length % 2 = 1 then .error .oddLength else decodePairs 0 bytes

theorem digit_ascii : ∀ n : Fin 16, (digit n.val).utf8Size = 1 := by decide

theorem value?_digit : ∀ n : Fin 16, value? (digit n.val).toUInt8 = some (UInt8.ofNat n.val) := by
  decide

/-- The digits of bytes are read as these bytes, wherever they stand. -/
theorem decodePairs_encode (position : Nat) (bytes : List UInt8) :
    decodePairs position ((bytes.flatMap pair).map fun c => c.toUInt8) = .ok bytes := by
  induction bytes generalizing position with
  | nil => rfl
  | cons byte rest ih =>
    have high := value?_digit ⟨byte.toNat / 16, by have := byte.toNat_lt; omega⟩
    have low := value?_digit ⟨byte.toNat % 16, by omega⟩
    have whole : 16 * UInt8.ofNat (byte.toNat / 16) + UInt8.ofNat (byte.toNat % 16) = byte := by
      apply UInt8.toNat.inj
      have := byte.toNat_lt
      simp
      omega
    simp only [List.flatMap_cons, pair, List.cons_append, List.nil_append, List.map_cons,
      decodePairs, high, low, ih, whole, Except.map]

theorem length_flatMap_pair (bytes : List UInt8) :
    (bytes.flatMap pair).length = 2 * bytes.length := by
  induction bytes with
  | nil => rfl
  | cons byte rest ih =>
    rw [List.flatMap_cons, List.length_append, ih, List.length_cons, pair]
    simp only [List.length_cons, List.length_nil]
    omega

/-- What is written for bytes is read as these bytes. -/
theorem decode_encode (bytes : List UInt8) : decode (encode bytes) = .ok bytes := by
  have ascii : ∀ c ∈ bytes.flatMap pair, c.utf8Size = 1 := by
    intro c hc
    obtain ⟨byte, _, hc⟩ := List.mem_flatMap.1 hc
    simp only [pair, List.mem_cons, List.not_mem_nil, or_false] at hc
    rcases hc with rfl | rfl
    · exact digit_ascii ⟨byte.toNat / 16, by have := byte.toNat_lt; omega⟩
    · exact digit_ascii ⟨byte.toNat % 16, by omega⟩
  unfold decode encode
  rw [Utf8.encode_ofList_ascii _ ascii]
  simp only [List.length_map, length_flatMap_pair]
  rw [if_neg (by omega)]
  exact decodePairs_encode 0 bytes

end FieldCrypt.Hex
