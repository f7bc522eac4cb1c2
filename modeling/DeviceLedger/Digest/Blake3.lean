import DeviceLedger.Bytes

/-!
The BLAKE3 hash of a byte string. The input is cut into chunks of 1024 bytes and these into blocks
of 64; a chunk is chained block by block, and the chunks are the leaves of a binary tree whose left
branches are as large a power of two as fits. A `Node` is the last compression of a subtree, left
open so that the root can be marked.
-/

namespace DeviceLedger.Blake3

/-- Eight words that stand for a chunk or a subtree. -/
abbrev ChainingValue := Vector UInt32 8

/-- Sixteen words: a block of the input, or the state of the compression. -/
abbrev Words := Vector UInt32 16

def initial : ChainingValue :=
  #v[0x6A09E667, 0xBB67AE85, 0x3C6EF372, 0xA54FF53A, 0x510E527F, 0x9B05688C, 0x1F83D9AB, 0x5BE0CD19]

/-- Where each word of the next round's block comes from. -/
def permutation : Vector (Fin 16) 16 :=
  #v[2, 6, 3, 10, 7, 0, 4, 13, 1, 11, 12, 5, 9, 14, 15, 8]

/-- The mark on the first block of a chunk. -/
def chunkStart : UInt32 := 1

/-- The mark on the last block of a chunk. -/
def chunkEnd : UInt32 := 2

/-- The mark on a node that joins two subtrees. -/
def parent : UInt32 := 4

/-- The mark on the last compression of all. -/
def root : UInt32 := 8

def rotate (word : UInt32) (count : UInt32) : UInt32 :=
  (word >>> count) ||| (word <<< (32 - count))

/-- Mix two words of the block into four words of the state. -/
def mix (state : Words) (a b c d : Fin 16) (x y : UInt32) : Words :=
  let state := state.set a (state[a] + state[b] + x)
  let state := state.set d (rotate (state[d] ^^^ state[a]) 16)
  let state := state.set c (state[c] + state[d])
  let state := state.set b (rotate (state[b] ^^^ state[c]) 12)
  let state := state.set a (state[a] + state[b] + y)
  let state := state.set d (rotate (state[d] ^^^ state[a]) 8)
  let state := state.set c (state[c] + state[d])
  state.set b (rotate (state[b] ^^^ state[c]) 7)

/-- One round: the four columns of the state, then its four diagonals. -/
def round (state block : Words) : Words :=
  let state := mix state 0 4 8 12 block[0] block[1]
  let state := mix state 1 5 9 13 block[2] block[3]
  let state := mix state 2 6 10 14 block[4] block[5]
  let state := mix state 3 7 11 15 block[6] block[7]
  let state := mix state 0 5 10 15 block[8] block[9]
  let state := mix state 1 6 11 12 block[10] block[11]
  let state := mix state 2 7 8 13 block[12] block[13]
  mix state 3 4 9 14 block[14] block[15]

/-- Several rounds, each on the permuted block of the one before. -/
def rounds : Nat → Words → Words → Words
  | 0, state, _ => state
  | count + 1, state, block =>
    rounds count (round state block) (permutation.map fun source => block[source])

/-- A compression that is still to be done. -/
structure Node where
  chaining : ChainingValue
  block : Words
  counter : Nat
  length : Nat
  flags : UInt32

namespace Node

/-- The chaining value of a node, with more marks. -/
def compress (node : Node) (marks : UInt32) : ChainingValue :=
  let start : Words := node.chaining ++
    #v[initial[0], initial[1], initial[2], initial[3], UInt32.ofNat node.counter,
      UInt32.ofNat (node.counter / UInt32.size), UInt32.ofNat node.length, node.flags ||| marks]
  let final := rounds 7 start node.block
  Vector.ofFn fun index : Fin 8 => final[index.val] ^^^ final[index.val + 8]

/-- The chaining value of a node inside the tree. -/
def chain (node : Node) : ChainingValue := node.compress 0

end Node

/-- A number of four bytes, least significant first. -/
def word (bytes : Bytes) : UInt32 :=
  bytes.foldr (fun byte number => number * 256 + byte.toUInt32) 0

/-- The sixteen words of a block, with zeros for missing bytes. -/
def blockWords (block : Bytes) : Words :=
  Vector.ofFn fun index => word ((block.drop (4 * index.val)).take 4)

/-- The four bytes of a word, least significant first. -/
def wordBytes (word : UInt32) : Bytes :=
  [word.toUInt8, (word >>> 8).toUInt8, (word >>> 16).toUInt8, (word >>> 24).toUInt8]

/-- Pieces of `width` bytes, the last one possibly shorter; there is always one. -/
def pieces (width : Nat) (bytes : Bytes) : List Bytes :=
  if _hLast : (bytes.drop width).isEmpty ∨ width = 0 then [bytes]
  else bytes.take width :: pieces width (bytes.drop width)
termination_by bytes.length
decreasing_by
  simp only [List.isEmpty_iff, List.drop_eq_nil_iff] at _hLast
  simp only [List.length_drop]
  omega

/-- The node at which a chunk ends, after the blocks that are chained already. -/
def chunkNode (counter : Nat) (chaining : ChainingValue) (marks : UInt32) : List Bytes → Node
  | [] => ⟨chaining, blockWords [], counter, 0, marks ||| chunkEnd⟩
  | [block] => ⟨chaining, blockWords block, counter, block.length, marks ||| chunkEnd⟩
  | block :: rest =>
    chunkNode counter (Node.chain ⟨chaining, blockWords block, counter, block.length, marks⟩) 0 rest

/-- The leaf of the chunk with the given number. -/
def leaf (counter : Nat) (chunk : Bytes) : Node :=
  chunkNode counter initial chunkStart (pieces 64 chunk)

/-- The node above two subtrees. -/
def join (left right : Node) : Node :=
  ⟨initial, left.chain ++ right.chain, 0, 64, parent⟩

/-- The greatest power of two below a number of at least two. -/
def leftSize (count : Nat) : Nat := 1 <<< (count - 1).log2

/-- The node above the given chunks, the first of which has the given number. The count of chunks
is the fuel, since each branch has fewer chunks than the whole. -/
def tree : Nat → Nat → List Bytes → Node
  | 0, counter, chunks => leaf counter (chunks.headD [])
  | _ + 1, counter, [chunk] => leaf counter chunk
  | fuel + 1, counter, chunks =>
    let size := leftSize chunks.length
    join (tree fuel counter (chunks.take size)) (tree fuel (counter + size) (chunks.drop size))

/-- The 32-byte hash of a byte string. -/
def hash (data : Bytes) : Bytes :=
  let chunks := pieces 1024 data
  ((tree chunks.length 0 chunks).compress root).toList.flatMap wordBytes

theorem length_hash (data : Bytes) : (hash data).length = 32 := by
  simp [hash, List.length_flatMap, wordBytes, List.map_const']

end DeviceLedger.Blake3
