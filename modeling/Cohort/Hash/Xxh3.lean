/-!
# XXH3: a seeded 64-bit hash of a byte string

Inputs up to 16, 128 and 240 bytes each have a formula of their own, which reads every byte; longer
ones are folded stripe by stripe into eight accumulators. All words are little-endian and all
arithmetic is modulo `2 ^ 64`.
-/

namespace Cohort.Hash

/-- The byte at `i`; 0 past the end. -/
def byteAt (b : ByteArray) (i : Nat) : UInt64 := (b.data.getD i 0).toUInt64

/-- The four bytes from `i` on as a word. -/
def read32 (b : ByteArray) (i : Nat) : UInt64 :=
  byteAt b i ||| byteAt b (i + 1) <<< 8 ||| byteAt b (i + 2) <<< 16 ||| byteAt b (i + 3) <<< 24

/-- The eight bytes from `i` on as a word. -/
def read64 (b : ByteArray) (i : Nat) : UInt64 := read32 b i ||| read32 b (i + 4) <<< 32

/-- The eight bytes of a word, lowest first. -/
def bytesOf (w : UInt64) : List UInt8 :=
  (List.range 8).map fun i => (w >>> (8 * i).toUInt64).toUInt8

def rotateLeft (w k : UInt64) : UInt64 := w <<< k ||| w >>> (64 - k)

/-- Reverses the four bytes of the lower half. -/
def swap32 (w : UInt64) : UInt64 :=
  (w &&& 0xff) <<< 24 ||| (w >>> 8 &&& 0xff) <<< 16 ||| (w >>> 16 &&& 0xff) <<< 8 |||
    (w >>> 24 &&& 0xff)

/-- Reverses the eight bytes. -/
def swap64 (w : UInt64) : UInt64 := swap32 w <<< 32 ||| swap32 (w >>> 32)

def lowHalf (w : UInt64) : UInt64 := w &&& 0xffffffff

/-- The two halves of the 128-bit product, xored. -/
def foldProduct (a b : UInt64) : UInt64 :=
  let p := a.toNat * b.toNat
  p.toUInt64 ^^^ (p >>> 64).toUInt64

namespace Xxh3

def prime32A : UInt64 := 0x9e3779b1
def prime32B : UInt64 := 0x85ebca77
def prime32C : UInt64 := 0xc2b2ae3d
def prime64A : UInt64 := 0x9e3779b185ebca87
def prime64B : UInt64 := 0xc2b2ae3d27d4eb4f
def prime64C : UInt64 := 0x165667b19e3779f9
def prime64D : UInt64 := 0x85ebca77c2b2ae63
def prime64E : UInt64 := 0x27d4eb2f165667c5
def mixA : UInt64 := 0x165667919e3779f9
def mixB : UInt64 := 0x9fb21c651e98df25

/-- The words of the secret that inputs are mixed with. -/
def secretWords : List UInt64 :=
  [0xbe4ba423396cfeb8, 0x1cad21f72c81017c, 0xdb979083e96dd4de, 0x1f67b3b7a4a44072,
   0x78e5c0cc4ee679cb, 0x2172ffcc7dd05a82, 0x8e2443f7744608b8, 0x4c263a81e69035e0,
   0xcb00c391bb52283c, 0xa32e531b8b65d088, 0x4ef90da297486471, 0xd8acdea946ef1938,
   0x3f349ce33f76faa8, 0x1d4f0bc7c7bbdcf9, 0x3159b4cd4be0518a, 0x647378d9c97e9fc8,
   0xc3ebd33483acc5ea, 0xeb6313faffa081c5, 0x49daf0b751dd0d17, 0x9e68d429265516d3,
   0xfca1477d58be162b, 0xce31d07ad1b8f88f, 0x280416958f3acb45, 0x7e404bbbcafbd7af]

def secret : ByteArray := ⟨(secretWords.flatMap bytesOf).toArray⟩

/-- The final mix of the shortest inputs. -/
def finishShort (h : UInt64) : UInt64 :=
  let h := (h ^^^ h >>> 33) * prime64B
  let h := (h ^^^ h >>> 29) * prime64C
  h ^^^ h >>> 32

def finish (h : UInt64) : UInt64 :=
  let h := (h ^^^ h >>> 37) * mixA
  h ^^^ h >>> 32

/-- One to three bytes. -/
def hash1to3 (b : ByteArray) (seed : UInt64) : UInt64 :=
  let len := b.size
  let combined := byteAt b 0 <<< 16 ||| byteAt b (len / 2) <<< 24 ||| byteAt b (len - 1) |||
    len.toUInt64 <<< 8
  finishShort (combined ^^^ ((read32 secret 0 ^^^ read32 secret 4) + seed))

/-- Four to eight bytes. -/
def hash4to8 (b : ByteArray) (seed : UInt64) : UInt64 :=
  let len := b.size
  let seed := seed ^^^ swap32 seed <<< 32
  let input := read32 b (len - 4) + read32 b 0 <<< 32
  let h := input ^^^ ((read64 secret 8 ^^^ read64 secret 16) - seed)
  let h := (h ^^^ rotateLeft h 49 ^^^ rotateLeft h 24) * mixB
  let h := (h ^^^ (h >>> 35) + len.toUInt64) * mixB
  h ^^^ h >>> 28

/-- Nine to sixteen bytes. -/
def hash9to16 (b : ByteArray) (seed : UInt64) : UInt64 :=
  let len := b.size
  let lo := read64 b 0 ^^^ ((read64 secret 24 ^^^ read64 secret 32) + seed)
  let hi := read64 b (len - 8) ^^^ ((read64 secret 40 ^^^ read64 secret 48) - seed)
  finish (len.toUInt64 + swap64 lo + hi + foldProduct lo hi)

/-- Sixteen bytes of input against sixteen of the secret. -/
def mix16 (b : ByteArray) (i j : Nat) (seed : UInt64) : UInt64 :=
  foldProduct (read64 b i ^^^ (read64 secret j + seed))
    (read64 b (i + 8) ^^^ (read64 secret (j + 8) - seed))

/-- Seventeen to 128 bytes: pairs from both ends inwards. -/
def hash17to128 (b : ByteArray) (seed : UInt64) : UInt64 :=
  let len := b.size
  let pairs := (List.range ((len - 1) / 32 + 1)).map fun k =>
    mix16 b (16 * k) (32 * k) seed + mix16 b (len - 16 * (k + 1)) (32 * k + 16) seed
  finish (pairs.foldl (· + ·) (len.toUInt64 * prime64A))

/-- 129 to 240 bytes. -/
def hash129to240 (b : ByteArray) (seed : UInt64) : UInt64 :=
  let len := b.size
  let first := (List.range 8).map fun k => mix16 b (16 * k) (16 * k) seed
  let second := (List.range' 8 (len / 16 - 8)).map fun k =>
    mix16 b (16 * k) (16 * (k - 8) + 3) seed
  let h := finish (first.foldl (· + ·) (len.toUInt64 * prime64A))
  finish (second.foldl (· + ·) h + mix16 b (len - 16) 119 seed)

/-- The secret shifted by the seed, one word up and the next one down. -/
def seededSecret (seed : UInt64) : ByteArray :=
  ⟨((List.range 12).flatMap fun k =>
    bytesOf (read64 secret (16 * k) + seed) ++
      bytesOf (read64 secret (16 * k + 8) - seed)).toArray⟩

/-- The eight accumulators. -/
abbrev Lanes := Array UInt64

def initialLanes : Lanes :=
  #[prime32C, prime64A, prime64B, prime64C, prime64D, prime32B, prime64E, prime32A]

/-- Adds the stripe of 64 bytes at `i`, keyed by the secret at `j`: each word goes to the
neighbouring lane, and the product of its keyed halves to its own. -/
def accumulate (b key : ByteArray) (lanes : Lanes) (i j : Nat) : Lanes :=
  (List.range 8).foldl
    (fun lanes k =>
      let data := read64 b (i + 8 * k)
      let keyed := data ^^^ read64 key (j + 8 * k)
      let product := lowHalf keyed * (keyed >>> 32)
      (lanes.modify (k ^^^ 1) (· + data)).modify k (· + product))
    lanes

/-- Mixes the lanes between blocks. -/
def scramble (key : ByteArray) (lanes : Lanes) : Lanes :=
  lanes.mapIdx fun k (lane : UInt64) =>
    (lane ^^^ lane >>> 47 ^^^ read64 key (128 + 8 * k)) * prime32A

/-- The stripes of the block at `i`, the secret moving on by a word per stripe. -/
def accumulateStripes (b key : ByteArray) (lanes : Lanes) (i stripes : Nat) : Lanes :=
  (List.range stripes).foldl (fun lanes k => accumulate b key lanes (i + 64 * k) (8 * k)) lanes

/-- More than 240 bytes: blocks of sixteen stripes, then the rest, then the last 64 bytes. -/
def hashLong (b : ByteArray) (seed : UInt64) : UInt64 :=
  let len := b.size
  let key := seededSecret seed
  let blocks := (len - 1) / 1024
  let lanes := (List.range blocks).foldl
    (fun lanes k => scramble key (accumulateStripes b key lanes (1024 * k) 16)) initialLanes
  let lanes := accumulateStripes b key lanes (1024 * blocks) ((len - 1 - 1024 * blocks) / 64)
  let lanes := accumulate b key lanes (len - 64) 121
  let merged := (List.range 4).map fun k =>
    foldProduct (lanes.getD (2 * k) 0 ^^^ read64 key (11 + 16 * k))
      (lanes.getD (2 * k + 1) 0 ^^^ read64 key (11 + 16 * k + 8))
  finish (merged.foldl (· + ·) (len.toUInt64 * prime64A))

/-- The hash of `b` under `seed`. -/
def hash (b : ByteArray) (seed : UInt64) : UInt64 :=
  let len := b.size
  if len = 0 then finishShort (seed ^^^ read64 secret 56 ^^^ read64 secret 64)
  else if len ≤ 3 then hash1to3 b seed
  else if len ≤ 8 then hash4to8 b seed
  else if len ≤ 16 then hash9to16 b seed
  else if len ≤ 128 then hash17to128 b seed
  else if len ≤ 240 then hash129to240 b seed
  else hashLong b seed

end Xxh3

end Cohort.Hash
