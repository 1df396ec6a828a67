import FieldCrypt.Cipher.Words
import FieldCrypt.Text.Utf8

/-!
# BLAKE3 key derivation

The input is cut into chunks of 1024 bytes, each chunk into blocks of 64. The chunks are the leaves
of a binary tree whose left subtrees are complete; every node is compressed to eight chaining words,
and the root, marked as such, to the output.
-/

namespace FieldCrypt.Cipher.Blake3

/-- The marks a compression is given. -/
def chunkStart : UInt32 := 1
def chunkEnd : UInt32 := 2
def parent : UInt32 := 4
def root : UInt32 := 8
def deriveContext : UInt32 := 32
def deriveMaterial : UInt32 := 64

/-- The eight words that a tree without a key starts from. -/
def initial : List UInt32 :=
  [0x6A09E667, 0xBB67AE85, 0x3C6EF372, 0xA54FF53A, 0x510E527F, 0x9B05688C, 0x1F83D9AB, 0x5BE0CD19]

/-- Mix four words of the square with two words of the message. -/
def mix (s : Square) (a b c d : Nat) (x y : UInt32) : Square :=
  let s := s.put a (s.word a + s.word b + x)
  let s := s.put d (rotateRight (s.word d ^^^ s.word a) 16)
  let s := s.put c (s.word c + s.word d)
  let s := s.put b (rotateRight (s.word b ^^^ s.word c) 12)
  let s := s.put a (s.word a + s.word b + y)
  let s := s.put d (rotateRight (s.word d ^^^ s.word a) 8)
  let s := s.put c (s.word c + s.word d)
  s.put b (rotateRight (s.word b ^^^ s.word c) 7)

/-- One round: the columns, then the diagonals, with the message words in order. -/
def round (s m : Square) : Square :=
  let s := mix s 0 4 8 12 (m.word 0) (m.word 1)
  let s := mix s 1 5 9 13 (m.word 2) (m.word 3)
  let s := mix s 2 6 10 14 (m.word 4) (m.word 5)
  let s := mix s 3 7 11 15 (m.word 6) (m.word 7)
  let s := mix s 0 5 10 15 (m.word 8) (m.word 9)
  let s := mix s 1 6 11 12 (m.word 10) (m.word 11)
  let s := mix s 2 7 8 13 (m.word 12) (m.word 13)
  mix s 3 4 9 14 (m.word 14) (m.word 15)

/-- Where each word of the next round's message comes from. -/
def schedule : List Nat := [2, 6, 3, 10, 7, 0, 4, 13, 1, 11, 12, 5, 9, 14, 15, 8]

/-- The message of the next round. -/
def permute (m : Square) : Square := .ofList (schedule.map m.word)

/-- `count` rounds, the message permuted between them. -/
def rounds : (count : Nat) → Square → Square → Square
  | 0, s, _ => s
  | count + 1, s, m => rounds count (round s m) (permute m)

/-- A node of the tree before it is compressed. -/
structure Node where
  chaining : List UInt32
  message : Square
  number : Nat
  length : Nat
  marks : UInt32

/-- The first eight words of a compression. -/
def Node.compress (node : Node) (marks : UInt32) : List UInt32 :=
  let s := Square.ofList (node.chaining ++ initial.take 4 ++
    [UInt32.ofNat node.number, UInt32.ofNat (node.number / 0x100000000), UInt32.ofNat node.length,
      node.marks ||| marks])
  let s := rounds 7 s node.message
  List.zipWith (· ^^^ ·) (s.toList.take 8) (s.toList.drop 8)

/-- Pieces of `size` bytes, the last one shorter; at least one piece. -/
def pieces (size : Nat) (bytes : List UInt8) : List (List UInt8) :=
  if _short : size = 0 ∨ bytes.length ≤ size then [bytes]
  else bytes.take size :: pieces size (bytes.drop size)
termination_by bytes.length
decreasing_by
  simp only [List.length_drop]
  omega

/-- The last block of a chunk as a node, the blocks before it chained into it. -/
def chunkBlocks (key : List UInt32) (number : Nat) (marks : UInt32) :
    (chaining : List UInt32) → (first : UInt32) → List (List UInt8) → Node
  | chaining, first, [] => ⟨chaining, .ofList [], number, 0, marks ||| first ||| chunkEnd⟩
  | chaining, first, [block] =>
    ⟨chaining, .ofList (wordsOfBytes block), number, block.length, marks ||| first ||| chunkEnd⟩
  | chaining, first, block :: rest =>
    let node : Node :=
      ⟨chaining, .ofList (wordsOfBytes block), number, block.length, marks ||| first⟩
    chunkBlocks key number marks (node.compress 0) 0 rest

/-- The node of a chunk. -/
def chunk (key : List UInt32) (number : Nat) (marks : UInt32) (bytes : List UInt8) : Node :=
  chunkBlocks key number marks key chunkStart (pieces 64 bytes)

/-- How many of `count` chunks go to the left: the greatest power of two that leaves one for the
right. -/
def leftCount (count : Nat) : Nat := Nat.pow 2 (count - 1).log2

theorem leftCount_pos (count : Nat) : 0 < leftCount count := Nat.two_pow_pos _

theorem leftCount_lt {count : Nat} (several : 1 < count) : leftCount count < count := by
  have bounded : leftCount count ≤ count - 1 := Nat.log2_self_le (by omega)
  omega

/-- The node over some chunks, the first of them the chunk `number`. -/
def subtree (key : List UInt32) (marks : UInt32) (number : Nat) : List (List UInt8) → Node
  | [] => chunk key number marks []
  | [bytes] => chunk key number marks bytes
  | first :: second :: rest =>
    let chunks := first :: second :: rest
    let left := leftCount chunks.length
    let leftNode := subtree key marks number (chunks.take left)
    let rightNode := subtree key marks (number + left) (chunks.drop left)
    ⟨key, .ofList (leftNode.compress 0 ++ rightNode.compress 0), 0, 64, marks ||| parent⟩
termination_by chunks => chunks.length
decreasing_by
  · have small := leftCount_lt (show 1 < rest.length + 1 + 1 by omega)
    simp only [List.length_take, List.length_cons]
    omega
  · have positive := leftCount_pos (rest.length + 1 + 1)
    simp only [List.length_drop, List.length_cons]
    omega

/-- The eight words of the root over some bytes. -/
def hash (key : List UInt32) (marks : UInt32) (bytes : List UInt8) : List UInt32 :=
  (subtree key marks 0 (pieces 1024 bytes)).compress root

/-- The thirty-two bytes derived from key material for a use named by `context`. -/
def deriveKey (context : String) (material : List UInt8) : List UInt8 :=
  let key := hash initial deriveContext (Utf8.encode context)
  (hash key deriveMaterial material).flatMap bytesOfWord

end FieldCrypt.Cipher.Blake3
