/-!
# The BLAKE3 digest

The unkeyed digest of 32 bytes.  The input is cut into chunks of 1024 bytes,
each chunk is folded block by block into a chaining value, and the chaining
values are joined in a binary tree whose left subtrees are complete.
-/

namespace LinkGraph.Digest

/-- Eight words that are carried from block to block. -/
abbrev ChainingValue := Vector UInt32 8

/-- The sixteen words of a message block, or of the state of the compression. -/
abbrev Block := Vector UInt32 16

def initialValue : ChainingValue :=
  #v[0x6A09E667, 0xBB67AE85, 0x3C6EF372, 0xA54FF53A, 0x510E527F, 0x9B05688C,
    0x1F83D9AB, 0x5BE0CD19]

/-- The order in which a round hands the message words to the next round. -/
def permutation : Vector (Fin 16) 16 :=
  #v[2, 6, 3, 10, 7, 0, 4, 13, 1, 11, 12, 5, 9, 14, 15, 8]

/-- The roles of a compressed block. -/
structure Role where
  chunkStart : Bool := false
  chunkEnd : Bool := false
  parent : Bool := false
  root : Bool := false

def Role.word (r : Role) : UInt32 :=
  (if r.chunkStart then 1 else 0) + (if r.chunkEnd then 2 else 0) +
    (if r.parent then 4 else 0) + (if r.root then 8 else 0)

/-- A word turned right by `n` bits, `0 < n < 32`. -/
def rotateRight (w n : UInt32) : UInt32 :=
  (w >>> n) ||| (w <<< (32 - n))

/-- Four words of the state mixed with two message words. -/
def mix (v : Block) (a b c d : Fin 16) (x y : UInt32) : Block :=
  let v := v.set a (v[a] + v[b] + x)
  let v := v.set d (rotateRight (v[d] ^^^ v[a]) 16)
  let v := v.set c (v[c] + v[d])
  let v := v.set b (rotateRight (v[b] ^^^ v[c]) 12)
  let v := v.set a (v[a] + v[b] + y)
  let v := v.set d (rotateRight (v[d] ^^^ v[a]) 8)
  let v := v.set c (v[c] + v[d])
  v.set b (rotateRight (v[b] ^^^ v[c]) 7)

/-- One round: the columns of the state, then its diagonals. -/
def round (m v : Block) : Block :=
  let v := mix v 0 4 8 12 m[0] m[1]
  let v := mix v 1 5 9 13 m[2] m[3]
  let v := mix v 2 6 10 14 m[4] m[5]
  let v := mix v 3 7 11 15 m[6] m[7]
  let v := mix v 0 5 10 15 m[8] m[9]
  let v := mix v 1 6 11 12 m[10] m[11]
  let v := mix v 2 7 8 13 m[12] m[13]
  mix v 3 4 9 14 m[14] m[15]

/-- A number of rounds, the message words permuted after each. -/
def rounds : Nat → Block → Block → Block
  | 0, _, v => v
  | n + 1, m, v => rounds n (permutation.map fun i => m[i]) (round m v)

/-- A block folded into a chaining value. -/
def compress
    (h : ChainingValue) (m : Block) (counter : UInt64) (length : UInt32)
    (role : Role) : ChainingValue :=
  let state : Block :=
    #v[h[0], h[1], h[2], h[3], h[4], h[5], h[6], h[7],
      initialValue[0], initialValue[1], initialValue[2], initialValue[3],
      counter.toUInt32, (counter >>> 32).toUInt32, length, role.word]
  let v := rounds 7 m state
  Vector.ofFn fun i : Fin 8 => v[i.val] ^^^ v[i.val + 8]

/-- Up to 64 bytes as a block, least significant byte first and filled up with
zeros. -/
def blockOf (bs : List UInt8) : Block :=
  let a := bs.toArray
  Vector.ofFn fun i : Fin 16 =>
    let byte (j : Nat) : UInt32 := (a.getD (4 * i.val + j) 0).toUInt32
    byte 0 ||| (byte 1 <<< 8) ||| (byte 2 <<< 16) ||| (byte 3 <<< 24)

/-- The blocks of a chunk folded from a chaining value on; `start` holds before
the first. -/
def foldBlocks
    (counter : UInt64) (root : Bool) (h : ChainingValue) (start : Bool)
    (bs : List UInt8) : ChainingValue :=
  if bs.length ≤ 64 then
    compress h (blockOf bs) counter (UInt32.ofNat bs.length) ⟨start, true,
      false, root⟩
  else
    let h :=
      compress h (blockOf (bs.take 64)) counter 64 ⟨start, false, false, false⟩
    foldBlocks counter root h false (bs.drop 64)
termination_by bs.length
decreasing_by simp; omega

def chunkValue
    (counter : Nat) (root : Bool) (bs : List UInt8) : ChainingValue :=
  foldBlocks (UInt64.ofNat counter) root initialValue true bs

/-- Two chaining values joined. -/
def parentValue (root : Bool) (left right : ChainingValue) : ChainingValue :=
  compress initialValue (left ++ right) 0 64 ⟨false, false, true, root⟩

/-- How many of `n` chunks, more than one, go to the left: the largest power of
two below `n`. -/
def leftChunks (n : Nat) : Nat :=
  1 <<< (n - 1).log2

theorem leftChunks_pos (n : Nat) : 0 < leftChunks n := by
  rw [leftChunks, Nat.one_shiftLeft]
  exact Nat.two_pow_pos _

theorem leftChunks_le {n : Nat} (h : n ≠ 0) : leftChunks (n + 1) ≤ n := by
  rw [leftChunks, Nat.one_shiftLeft]
  exact Nat.log2_self_le h

/-- The chaining value of the tree over `n + 1` chunks, the first of them with
the given number. -/
def treeValue
    (n counter : Nat) (root : Bool) (bs : List UInt8) : ChainingValue :=
  if h : n = 0 then chunkValue counter root bs
  else
    let left := leftChunks (n + 1)
    have : left ≤ n := leftChunks_le h
    have : 0 < left := leftChunks_pos _
    parentValue root (treeValue (left - 1) counter false
      (bs.take (1024 * left)))
      (treeValue (n - left) (counter + left) false (bs.drop (1024 * left)))
termination_by n

/-- The bytes of a word, least significant first. -/
def wordBytes (w : UInt32) : List UInt8 :=
  [w.toUInt8, (w >>> 8).toUInt8, (w >>> 16).toUInt8, (w >>> 24).toUInt8]

/-- The digest of a byte sequence, 32 bytes. -/
def blake3 (bs : List UInt8) : List UInt8 :=
  (treeValue ((bs.length - 1) / 1024) 0 true bs).toList.flatMap wordBytes

end LinkGraph.Digest
