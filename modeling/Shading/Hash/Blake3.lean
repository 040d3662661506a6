/-!
# The BLAKE3 hash

A message is cut into chunks of 1024 bytes, each chunk into blocks of 64 bytes.  Compressing the
blocks of a chunk one after another gives the chunk's chaining value; chaining values are joined
in a binary tree whose left half always holds a power of two of chunks.  The root is compressed
once more with its own flag, and its first eight words are the hash.

The message is a plain list of bytes.  Chunks, blocks and the tree are recursions on lists that
end because each part is shorter than the whole.
-/

namespace Shading.Blake3

/-- Eight words that summarise what was compressed so far. -/
abbrev Chain := Vector UInt32 8

/-- A block, or a compression state: sixteen words. -/
abbrev Block := Vector UInt32 16

def initial : Chain :=
  #v[0x6A09E667, 0xBB67AE85, 0x3C6EF372, 0xA54FF53A, 0x510E527F, 0x9B05688C, 0x1F83D9AB, 0x5BE0CD19]

/-- Which word of a block stands at each place in the next round. -/
def permutation : Vector (Fin 16) 16 :=
  #v[2, 6, 3, 10, 7, 0, 4, 13, 1, 11, 12, 5, 9, 14, 15, 8]

/-! ## Flags -/

/-- The first block of a chunk. -/
def chunkStart : UInt32 := 1

/-- The last block of a chunk. -/
def chunkEnd : UInt32 := 2

/-- A block that joins two chaining values. -/
def parent : UInt32 := 4

/-- The last compression of a message. -/
def root : UInt32 := 8

/-! ## Compression -/

/-- Rotation to the right by `n` of the 32 places. -/
def rotateRight (x n : UInt32) : UInt32 := (x >>> n) ||| (x <<< (32 - n))

/-- Mixes two message words into four words of the state. -/
def quarter (s : Block) (a b c d : Fin 16) (x y : UInt32) : Block :=
  let va := s[a] + s[b] + x
  let vd := rotateRight (s[d] ^^^ va) 16
  let vc := s[c] + vd
  let vb := rotateRight (s[b] ^^^ vc) 12
  let va := va + vb + y
  let vd := rotateRight (vd ^^^ va) 8
  let vc := vc + vd
  let vb := rotateRight (vb ^^^ vc) 7
  (((s.set a va).set b vb).set c vc).set d vd

/-- One round: the four columns, then the four diagonals. -/
def round (s m : Block) : Block :=
  let s := quarter s 0 4 8 12 m[0] m[1]
  let s := quarter s 1 5 9 13 m[2] m[3]
  let s := quarter s 2 6 10 14 m[4] m[5]
  let s := quarter s 3 7 11 15 m[6] m[7]
  let s := quarter s 0 5 10 15 m[8] m[9]
  let s := quarter s 1 6 11 12 m[10] m[11]
  let s := quarter s 2 7 8 13 m[12] m[13]
  quarter s 3 4 9 14 m[14] m[15]

/-- The message words in the order of the next round. -/
def permute (m : Block) : Block := permutation.map fun i => m[i]

/-- `n` rounds, with the words permuted in between. -/
def rounds : Nat → Block → Block → Block
  | 0, s, _ => s
  | n + 1, s, m => rounds n (round s m) (permute m)

/-- Compresses a block into a chaining value. -/
def compress (chain : Chain) (block : Block) (counter : Nat) (length flags : UInt32) : Chain :=
  let s : Block :=
    #v[chain[0], chain[1], chain[2], chain[3], chain[4], chain[5], chain[6], chain[7],
      initial[0], initial[1], initial[2], initial[3],
      UInt32.ofNat counter, UInt32.ofNat (counter / UInt32.size), length, flags]
  let s := rounds 7 s block
  Vector.ofFn fun (i : Fin 8) => s[i.val] ^^^ s[i.val + 8]

/-! ## Chunks -/

/-- The word at place `i` of a byte list, least significant byte first; missing bytes are zero. -/
def wordAt (bytes : List UInt8) (i : Nat) : UInt32 :=
  let byte (k : Nat) : UInt32 := (bytes.getD (4 * i + k) 0).toUInt32
  byte 0 ||| (byte 1 <<< 8) ||| (byte 2 <<< 16) ||| (byte 3 <<< 24)

/-- A block of at most 64 bytes, filled up with zeros. -/
def blockOf (bytes : List UInt8) : Block := Vector.ofFn fun i => wordAt bytes i.val

/-- A compression that is ready to be done, with or without the root flag. -/
structure Pending where
  chain : Chain
  block : Block
  counter : Nat
  length : UInt32
  flags : UInt32

/-- The chaining value of a pending compression. -/
def Pending.value (p : Pending) (extra : UInt32) : Chain :=
  compress p.chain p.block p.counter p.length (p.flags ||| extra)

/-- Runs through the blocks of a chunk and leaves the last one pending. -/
def chunkBlocks (counter : Nat) (chain : Chain) (flags : UInt32) (bytes : List UInt8) : Pending :=
  if _h : bytes.length ≤ 64 then
    ⟨chain, blockOf bytes, counter, UInt32.ofNat bytes.length, flags ||| chunkEnd⟩
  else
    let next := compress chain (blockOf (bytes.take 64)) counter 64 flags
    chunkBlocks counter next 0 (bytes.drop 64)
termination_by bytes.length
decreasing_by
  rw [List.length_drop]
  omega

/-- The last compression of a chunk. -/
def chunk (counter : Nat) (bytes : List UInt8) : Pending :=
  chunkBlocks counter initial chunkStart bytes

/-! ## The tree -/

def join (left right : Chain) : Pending :=
  ⟨initial, left ++ right, 0, 64, parent⟩

/-- Bytes in the left half of a message longer than one chunk: the largest power of two of
chunks that leaves something for the right half. -/
def leftLength (n : Nat) : Nat := 1024 <<< Nat.log2 ((n - 1) / 1024)

theorem leftLength_pos (n : Nat) : 0 < leftLength n := by
  rw [leftLength, Nat.shiftLeft_eq]
  exact Nat.mul_pos (by decide) (Nat.two_pow_pos _)

theorem leftLength_lt {n : Nat} (h : 1024 < n) : leftLength n < n := by
  have hne : (n - 1) / 1024 ≠ 0 := by omega
  have hle := Nat.log2_self_le hne
  have hdiv := Nat.div_mul_le_self (n - 1) 1024
  rw [leftLength, Nat.shiftLeft_eq]
  omega

/-- The last compression of the subtree that starts at chunk `counter`. -/
def subtree (counter : Nat) (bytes : List UInt8) : Pending :=
  if h : bytes.length ≤ 1024 then chunk counter bytes
  else
    let n := leftLength bytes.length
    let left := subtree counter (bytes.take n)
    let right := subtree (counter + n / 1024) (bytes.drop n)
    join (left.value 0) (right.value 0)
termination_by bytes.length
decreasing_by
  · have := leftLength_lt (Nat.lt_of_not_le h)
    rw [List.length_take]
    omega
  · have := leftLength_pos bytes.length
    rw [List.length_drop]
    omega

/-- The hash of a message, as eight words. -/
def hash (bytes : List UInt8) : Chain := (subtree 0 bytes).value root

/-! ## Hexadecimal form -/

/-- The four bytes of a word, least significant byte first. -/
def wordBytes (w : UInt32) : List UInt8 :=
  [w.toUInt8, (w >>> 8).toUInt8, (w >>> 16).toUInt8, (w >>> 24).toUInt8]

/-- Two lower-case hexadecimal digits. -/
def hexByte (b : UInt8) : List Char :=
  [Nat.digitChar (b.toNat / 16), Nat.digitChar (b.toNat % 16)]

/-- The hash of a message, as 64 hexadecimal digits. -/
def hexHash (bytes : List UInt8) : String :=
  String.ofList ((hash bytes).toList.flatMap fun w => (wordBytes w).flatMap hexByte)

end Shading.Blake3
