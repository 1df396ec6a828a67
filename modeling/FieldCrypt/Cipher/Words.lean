/-!
# Words and bytes

Numbers and 32-bit words as bytes, the least significant byte first.
-/

namespace FieldCrypt.Cipher

/-- The number that bytes write down. -/
def natOfBytes : List UInt8 → Nat
  | [] => 0
  | byte :: rest => byte.toNat + 256 * natOfBytes rest

/-- The lowest `count` bytes of a number. -/
def bytesOfNat : (count : Nat) → Nat → List UInt8
  | 0, _ => []
  | count + 1, n => UInt8.ofNat n :: bytesOfNat count (n / 256)

@[simp] theorem length_bytesOfNat (count n : Nat) : (bytesOfNat count n).length = count := by
  induction count generalizing n with
  | zero => rfl
  | succ count ih => simp [bytesOfNat, ih]

/-- The bytes of a word. -/
def bytesOfWord (word : UInt32) : List UInt8 := bytesOfNat 4 word.toNat

@[simp] theorem length_bytesOfWord (word : UInt32) : (bytesOfWord word).length = 4 := by
  simp [bytesOfWord]

/-- The words that bytes write down, four bytes to a word, as if zero bytes followed. -/
def wordsOfBytes : List UInt8 → List UInt32
  | [] => []
  | [a] => [UInt32.ofNat (natOfBytes [a])]
  | [a, b] => [UInt32.ofNat (natOfBytes [a, b])]
  | [a, b, c] => [UInt32.ofNat (natOfBytes [a, b, c])]
  | a :: b :: c :: d :: rest => UInt32.ofNat (natOfBytes [a, b, c, d]) :: wordsOfBytes rest

/-- Turn a word left by `count` places, `0 < count < 32`. -/
def rotateLeft (word count : UInt32) : UInt32 := (word <<< count) ||| (word >>> (32 - count))

/-- Turn a word right by `count` places, `0 < count < 32`. -/
def rotateRight (word count : UInt32) : UInt32 := rotateLeft word (32 - count)

/-- Sixteen words in a square, the state that both block functions work on. -/
abbrev Square := Vector UInt32 16

/-- The word at a place from 0 to 15. -/
def Square.word (s : Square) (place : Nat) : UInt32 := s.getD place 0

/-- The square with the word at a place replaced. -/
def Square.put (s : Square) (place : Nat) (word : UInt32) : Square := s.setIfInBounds place word

/-- The first sixteen words of a list, zero where it is too short. -/
def Square.ofList (words : List UInt32) : Square := Vector.ofFn fun i => words.getD i.val 0

end FieldCrypt.Cipher
