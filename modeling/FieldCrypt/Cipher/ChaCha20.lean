import FieldCrypt.Cipher.Words

/-!
# ChaCha20 key stream

The block function mixes a key, a block number and a nonce by twenty rounds. The stream is the
blocks one after another.
-/

namespace FieldCrypt.Cipher.ChaCha20

/-- Mix four words of the square. -/
def quarterRound (s : Square) (a b c d : Nat) : Square :=
  let s := s.put a (s.word a + s.word b)
  let s := s.put d (rotateLeft (s.word d ^^^ s.word a) 16)
  let s := s.put c (s.word c + s.word d)
  let s := s.put b (rotateLeft (s.word b ^^^ s.word c) 12)
  let s := s.put a (s.word a + s.word b)
  let s := s.put d (rotateLeft (s.word d ^^^ s.word a) 8)
  let s := s.put c (s.word c + s.word d)
  s.put b (rotateLeft (s.word b ^^^ s.word c) 7)

/-- One round over the columns and one over the diagonals. -/
def doubleRound (s : Square) : Square :=
  let s := quarterRound s 0 4 8 12
  let s := quarterRound s 1 5 9 13
  let s := quarterRound s 2 6 10 14
  let s := quarterRound s 3 7 11 15
  let s := quarterRound s 0 5 10 15
  let s := quarterRound s 1 6 11 12
  let s := quarterRound s 2 7 8 13
  quarterRound s 3 4 9 14

/-- The four constant words at the head of the square. -/
def constants : List UInt32 := [0x61707865, 0x3320646e, 0x79622d32, 0x6b206574]

/-- The square before the first round. -/
def start (key nonce : List UInt8) (number : Nat) : Square :=
  .ofList (constants ++ wordsOfBytes key ++ [UInt32.ofNat number] ++ wordsOfBytes nonce)

/-- The sixty-four bytes of one block. -/
def block (key nonce : List UInt8) (number : Nat) : List UInt8 :=
  let first := start key nonce number
  let last := Nat.repeat doubleRound 10 first
  (Vector.zipWith (· + ·) first last).toList.flatMap bytesOfWord

theorem length_flatMap_bytesOfWord (words : List UInt32) :
    (words.flatMap bytesOfWord).length = 4 * words.length := by
  induction words with
  | nil => rfl
  | cons word rest ih => simp [List.flatMap_cons, ih]; omega

@[simp] theorem length_block (key nonce : List UInt8) (number : Nat) :
    (block key nonce number).length = 64 := by
  unfold block
  rw [length_flatMap_bytesOfWord]
  simp

/-- `count` blocks from `number` on. -/
def blocks (key nonce : List UInt8) (number count : Nat) : List UInt8 :=
  (List.range count).flatMap fun i => block key nonce (number + i)

/-- The first `length` bytes of the stream that begins with block `number`. -/
def stream (key nonce : List UInt8) (number length : Nat) : List UInt8 :=
  (blocks key nonce number (length / 64 + 1)).take length

/-- Combine bytes with the stream that begins with block one. -/
def apply (key nonce bytes : List UInt8) : List UInt8 :=
  List.zipWith (· ^^^ ·) bytes (stream key nonce 1 bytes.length)

theorem length_flatMap_range (f : Nat → List UInt8) (size count : Nat)
    (h : ∀ i, (f i).length = size) : ((List.range count).flatMap f).length = size * count := by
  induction count with
  | zero => rfl
  | succ count ih => simp [List.range_succ, List.flatMap_append, ih, h, Nat.mul_succ]

@[simp] theorem length_stream (key nonce : List UInt8) (number length : Nat) :
    (stream key nonce number length).length = length := by
  unfold stream blocks
  rw [List.length_take, length_flatMap_range _ 64 _ fun i => length_block key nonce (number + i)]
  omega

@[simp] theorem length_apply (key nonce bytes : List UInt8) :
    (apply key nonce bytes).length = bytes.length := by
  simp [apply]

theorem zipWith_xor_twice (bytes mask : List UInt8) (h : mask.length = bytes.length) :
    List.zipWith (· ^^^ ·) (List.zipWith (· ^^^ ·) bytes mask) mask = bytes := by
  induction bytes generalizing mask with
  | nil => simp
  | cons byte rest ih =>
    cases mask with
    | nil => simp at h
    | cons m mask =>
      simp only [List.zipWith_cons_cons, List.cons.injEq]
      exact ⟨by rw [UInt8.xor_assoc, UInt8.xor_self, UInt8.xor_zero], ih mask (by simpa using h)⟩

/-- Combining bytes with the stream twice gives them back. -/
@[simp] theorem apply_apply (key nonce bytes : List UInt8) :
    apply key nonce (apply key nonce bytes) = bytes := by
  have masked := zipWith_xor_twice bytes (stream key nonce 1 bytes.length) (by simp)
  unfold apply
  simpa using masked

end FieldCrypt.Cipher.ChaCha20
