import SecretSync.Text.Basic

/-!
BLAKE2b without a key. Data is taken in blocks of 128 bytes, the last one filled up with zeros; a
block is sixteen little-endian words, which twelve rounds mix into the state of eight words.
-/

namespace SecretSync.Blake2b

-- The initial values of the state, the fractions of the square roots of the first eight primes.
def initial : Array UInt64 := #[
  0x6A09E667F3BCC908, 0xBB67AE8584CAA73B, 0x3C6EF372FE94F82B, 0xA54FF53A5F1D36F1,
  0x510E527FADE682D1, 0x9B05688C2B3E6C1F, 0x1F83D9ABFB41BD6B, 0x5BE0CD19137E2179]

-- For each round, the order in which it takes the words of the block.
def schedule : List (List Nat) :=
  let rows := [
    [0, 1, 2, 3, 4, 5, 6, 7, 8, 9, 10, 11, 12, 13, 14, 15],
    [14, 10, 4, 8, 9, 15, 13, 6, 1, 12, 0, 2, 11, 7, 5, 3],
    [11, 8, 12, 0, 5, 2, 15, 13, 10, 14, 3, 6, 7, 1, 9, 4],
    [7, 9, 3, 1, 13, 12, 11, 14, 2, 6, 5, 10, 4, 0, 15, 8],
    [9, 0, 5, 7, 2, 4, 10, 15, 14, 1, 11, 12, 6, 8, 3, 13],
    [2, 12, 6, 10, 0, 11, 8, 3, 4, 13, 7, 5, 15, 14, 1, 9],
    [12, 5, 1, 15, 14, 13, 4, 10, 0, 7, 6, 3, 9, 2, 8, 11],
    [13, 11, 7, 14, 12, 1, 3, 9, 5, 0, 15, 4, 8, 6, 2, 10],
    [6, 15, 14, 9, 11, 3, 0, 8, 12, 2, 13, 7, 1, 4, 10, 5],
    [10, 2, 8, 4, 7, 6, 1, 5, 15, 11, 9, 14, 3, 12, 13, 0]]
  rows ++ rows.take 2

-- The columns, then the diagonals of the four by four matrix of words that a round mixes.
def quarters : List (Nat × Nat × Nat × Nat) := [
  (0, 4, 8, 12), (1, 5, 9, 13), (2, 6, 10, 14), (3, 7, 11, 15),
  (0, 5, 10, 15), (1, 6, 11, 12), (2, 7, 8, 13), (3, 4, 9, 14)]

def rotateRight (w : UInt64) (n : UInt64) : UInt64 := (w >>> n) ||| (w <<< (64 - n))

def mix (v : Array UInt64) (at4 : Nat × Nat × Nat × Nat) (x y : UInt64) : Array UInt64 :=
  let (i, j, k, l) := at4
  let a := v.getD i 0 + v.getD j 0 + x
  let d := rotateRight (v.getD l 0 ^^^ a) 32
  let c := v.getD k 0 + d
  let b := rotateRight (v.getD j 0 ^^^ c) 24
  let a := a + b + y
  let d := rotateRight (d ^^^ a) 16
  let c := c + d
  let b := rotateRight (b ^^^ c) 63
  (((v.setIfInBounds i a).setIfInBounds j b).setIfInBounds k c).setIfInBounds l d

def pairs : List Nat → List (Nat × Nat)
  | x :: y :: rest => (x, y) :: pairs rest
  | _ => []

def round (block : Array UInt64) (v : Array UInt64) (order : List Nat) : Array UInt64 :=
  (quarters.zip (pairs order)).foldl
    (fun v (at4, x, y) => mix v at4 (block.getD x 0) (block.getD y 0)) v

-- Takes a block into the state. `count` is the number of bytes so far, this block included.
def compress (state : Array UInt64) (block : Array UInt64) (count : Nat) (last : Bool) :
    Array UInt64 :=
  let matrix := (state ++ initial)
    |>.modify 12 (· ^^^ count.toUInt64)
    |>.modify 13 (· ^^^ (count / 0x10000000000000000).toUInt64)
    |>.modify 14 (fun w => if last then w ^^^ 0xFFFFFFFFFFFFFFFF else w)
  let mixed := schedule.foldl (round block) matrix
  Array.ofFn fun i : Fin 8 =>
    state.getD i.val 0 ^^^ mixed.getD i.val 0 ^^^ mixed.getD (i.val + 8) 0

def words : Bytes → List UInt64
  | a :: b :: c :: d :: e :: f :: g :: h :: rest =>
    [h, g, f, e, d, c, b, a].foldl (fun w byte => w <<< 8 ||| byte.toUInt64) 0 :: words rest
  | _ => []

def toBlock (bytes : Bytes) : Array UInt64 :=
  (words (bytes ++ List.replicate (128 - bytes.length) 0)).toArray

-- Takes in the data that is left; the last block is never empty unless there is no data at all.
-- `fuel` bounds the number of blocks.
def absorb : Nat → Array UInt64 → Nat → Bytes → Array UInt64
  | 0, state, _, _ => state
  | fuel + 1, state, count, bytes =>
    if bytes.length ≤ 128 then compress state (toBlock bytes) (count + bytes.length) true
    else
      absorb fuel (compress state (toBlock (bytes.take 128)) (count + 128) false) (count + 128)
        (bytes.drop 128)

def finalState (size : Nat) (bytes : Bytes) : Array UInt64 :=
  let start := initial.modify 0 (· ^^^ (0x01010000 + size).toUInt64)
  absorb (bytes.length / 128 + 1) start 0 bytes

-- The number whose lowest byte comes first in `w`, so far read as `n`.
def readLittleEndian : Nat → Nat → Nat → Nat
  | 0, _, n => n
  | bytes + 1, w, n => readLittleEndian bytes (w / 256) (n * 256 + w % 256)

-- The digest of eight bytes, as a big-endian number. The digest is the first word of the state,
-- lowest byte first.
def digest64 (bytes : Bytes) : Nat :=
  readLittleEndian 8 ((finalState 8 bytes).getD 0 0).toNat 0

theorem digest64_lt (bytes : Bytes) : digest64 bytes < 0x10000000000000000 := by
  unfold digest64
  generalize ((finalState 8 bytes).getD 0 0).toNat = w
  simp only [readLittleEndian]
  omega

end SecretSync.Blake2b
