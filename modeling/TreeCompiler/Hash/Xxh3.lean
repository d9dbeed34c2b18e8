import TreeCompiler.Text.Utf8

/-!
# The 64-bit XXH3 hash

`Xxh3.hash` is the unseeded 64-bit hash of a byte string. Short inputs are mixed directly, by length class; longer ones
are folded in stripes of 64 octets into eight lanes.
-/

namespace TreeCompiler.Xxh3

def secret : Array UInt8 := #[
  0xb8, 0xfe, 0x6c, 0x39, 0x23, 0xa4, 0x4b, 0xbe, 0x7c, 0x01, 0x81, 0x2c, 0xf7, 0x21, 0xad, 0x1c,
  0xde, 0xd4, 0x6d, 0xe9, 0x83, 0x90, 0x97, 0xdb, 0x72, 0x40, 0xa4, 0xa4, 0xb7, 0xb3, 0x67, 0x1f,
  0xcb, 0x79, 0xe6, 0x4e, 0xcc, 0xc0, 0xe5, 0x78, 0x82, 0x5a, 0xd0, 0x7d, 0xcc, 0xff, 0x72, 0x21,
  0xb8, 0x08, 0x46, 0x74, 0xf7, 0x43, 0x24, 0x8e, 0xe0, 0x35, 0x90, 0xe6, 0x81, 0x3a, 0x26, 0x4c,
  0x3c, 0x28, 0x52, 0xbb, 0x91, 0xc3, 0x00, 0xcb, 0x88, 0xd0, 0x65, 0x8b, 0x1b, 0x53, 0x2e, 0xa3,
  0x71, 0x64, 0x48, 0x97, 0xa2, 0x0d, 0xf9, 0x4e, 0x38, 0x19, 0xef, 0x46, 0xa9, 0xde, 0xac, 0xd8,
  0xa8, 0xfa, 0x76, 0x3f, 0xe3, 0x9c, 0x34, 0x3f, 0xf9, 0xdc, 0xbb, 0xc7, 0xc7, 0x0b, 0x4f, 0x1d,
  0x8a, 0x51, 0xe0, 0x4b, 0xcd, 0xb4, 0x59, 0x31, 0xc8, 0x9f, 0x7e, 0xc9, 0xd9, 0x78, 0x73, 0x64,
  0xea, 0xc5, 0xac, 0x83, 0x34, 0xd3, 0xeb, 0xc3, 0xc5, 0x81, 0xa0, 0xff, 0xfa, 0x13, 0x63, 0xeb,
  0x17, 0x0d, 0xdd, 0x51, 0xb7, 0xf0, 0xda, 0x49, 0xd3, 0x16, 0x55, 0x26, 0x29, 0xd4, 0x68, 0x9e,
  0x2b, 0x16, 0xbe, 0x58, 0x7d, 0x47, 0xa1, 0xfc, 0x8f, 0xf8, 0xb8, 0xd1, 0x7a, 0xd0, 0x31, 0xce,
  0x45, 0xcb, 0x3a, 0x8f, 0x95, 0x16, 0x04, 0x28, 0xaf, 0xd7, 0xfb, 0xca, 0xbb, 0x4b, 0x40, 0x7e]

def prime32x1 : UInt64 := 0x9E3779B1
def prime32x2 : UInt64 := 0x85EBCA77
def prime32x3 : UInt64 := 0xC2B2AE3D
def prime64x1 : UInt64 := 0x9E3779B185EBCA87
def prime64x2 : UInt64 := 0xC2B2AE3D27D4EB4F
def prime64x3 : UInt64 := 0x165667B19E3779F9
def prime64x4 : UInt64 := 0x85EBCA77C2B2AE63
def prime64x5 : UInt64 := 0x27D4EB2F165667C5
def primeMx1 : UInt64 := 0x165667919E3779F9
def primeMx2 : UInt64 := 0x9FB21C651E98DF25

/-- The little-endian word of `n` octets at an offset. -/
def readLE (xs : Array UInt8) (off n : Nat) : UInt64 :=
  (List.range n).foldr (fun i acc => acc <<< 8 ||| (xs.getD (off + i) 0).toUInt64) 0

def read32 (xs : Array UInt8) (off : Nat) : UInt64 := readLE xs off 4

def read64 (xs : Array UInt8) (off : Nat) : UInt64 := readLE xs off 8

def rotl (x n : UInt64) : UInt64 := x <<< n ||| x >>> (64 - n)

def byteSwap (x : UInt64) : UInt64 :=
  (List.range 8).foldl (fun acc i => acc <<< 8 ||| (x >>> (8 * i.toUInt64)) &&& 0xFF) 0

/-- The two halves of the full product, xored. -/
def fold128 (a b : UInt64) : UInt64 :=
  let p := a.toNat * b.toNat
  UInt64.ofNat p ^^^ UInt64.ofNat (p / Nat.pow 2 64)

def avalanche (h : UInt64) : UInt64 :=
  let h := (h ^^^ h >>> 37) * primeMx1
  h ^^^ h >>> 32

/-- The stronger finish of the shortest inputs. -/
def avalancheShort (h : UInt64) : UInt64 :=
  let h := (h ^^^ h >>> 33) * prime64x2
  let h := (h ^^^ h >>> 29) * prime64x3
  h ^^^ h >>> 32

def mix16 (xs : Array UInt8) (off soff : Nat) : UInt64 :=
  fold128 (read64 xs off ^^^ read64 secret soff) (read64 xs (off + 8) ^^^ read64 secret (soff + 8))

def hashUpTo3 (xs : Array UInt8) : UInt64 :=
  let len := xs.size
  let c1 := (xs.getD 0 0).toUInt64
  let c2 := (xs.getD (len / 2) 0).toUInt64
  let c3 := (xs.getD (len - 1) 0).toUInt64
  let combined := c1 <<< 16 ||| c2 <<< 24 ||| c3 ||| len.toUInt64 <<< 8
  avalancheShort (combined ^^^ (read32 secret 0 ^^^ read32 secret 4))

def hash4To8 (xs : Array UInt8) : UInt64 :=
  let len := xs.size
  let joined := read32 xs (len - 4) + read32 xs 0 <<< 32
  let h := joined ^^^ (read64 secret 8 ^^^ read64 secret 16)
  let h := (h ^^^ (rotl h 49 ^^^ rotl h 24)) * primeMx2
  let h := (h ^^^ ((h >>> 35) + len.toUInt64)) * primeMx2
  h ^^^ h >>> 28

def hash9To16 (xs : Array UInt8) : UInt64 :=
  let len := xs.size
  let lo := read64 xs 0 ^^^ (read64 secret 24 ^^^ read64 secret 32)
  let hi := read64 xs (len - 8) ^^^ (read64 secret 40 ^^^ read64 secret 48)
  avalanche (len.toUInt64 + byteSwap lo + hi + fold128 lo hi)

def hash17To128 (xs : Array UInt8) : UInt64 :=
  let len := xs.size
  let outer := (List.range 4).foldl (fun acc i =>
    if i = 0 || 32 * i < len then acc + mix16 xs (16 * i) (32 * i) + mix16 xs (len - 16 * (i + 1)) (32 * i + 16)
    else acc) 0
  avalanche (len.toUInt64 * prime64x1 + outer)

def hash129To240 (xs : Array UInt8) : UInt64 :=
  let len := xs.size
  let first := (List.range 8).foldl (fun acc i => acc + mix16 xs (16 * i) (16 * i)) (len.toUInt64 * prime64x1)
  let rest := (List.range (len / 16 - 8)).foldl
    (fun acc i => acc + mix16 xs (16 * (i + 8)) (16 * i + 3)) (avalanche first)
  avalanche (rest + mix16 xs (len - 16) 119)

def lanes0 : Array UInt64 :=
  #[prime32x3, prime64x1, prime64x2, prime64x3, prime64x4, prime32x2, prime64x5, prime32x1]

/-- Folds one stripe of 64 octets into the lanes. -/
def accumulate (lanes : Array UInt64) (xs : Array UInt8) (off soff : Nat) : Array UInt64 :=
  (List.range 8).foldl (fun (acc : Array UInt64) i =>
    let value := read64 xs (off + 8 * i)
    let keyed := value ^^^ read64 secret (soff + 8 * i)
    let j := if i % 2 = 0 then i + 1 else i - 1
    let acc : Array UInt64 := acc.set! j (acc.getD j 0 + value)
    let low : UInt64 := keyed &&& (0xFFFFFFFF : UInt64)
    acc.set! i (acc.getD i 0 + low * (keyed >>> 32))) lanes

def scramble (lanes : Array UInt64) : Array UInt64 :=
  lanes.mapIdx fun i (a : UInt64) => (a ^^^ (a >>> 47) ^^^ read64 secret (128 + 8 * i)) * prime32x1

def hashLong (xs : Array UInt8) : UInt64 :=
  let len := xs.size
  let blocks := (len - 1) / 1024
  let stripes (lanes : Array UInt64) (base n : Nat) : Array UInt64 :=
    (List.range n).foldl (fun acc i => accumulate acc xs (base + 64 * i) (8 * i)) lanes
  let lanes := (List.range blocks).foldl (fun acc b => scramble (stripes acc (1024 * b) 16)) lanes0
  let lanes := stripes lanes (1024 * blocks) ((len - 1 - 1024 * blocks) / 64)
  let lanes := accumulate lanes xs (len - 64) 121
  let merged := (List.range 4).foldl (fun acc i =>
    acc + fold128 (lanes.getD (2 * i) 0 ^^^ read64 secret (11 + 16 * i))
      (lanes.getD (2 * i + 1) 0 ^^^ read64 secret (19 + 16 * i))) (len.toUInt64 * prime64x1)
  avalanche merged

def hash (bs : Bytes) : UInt64 :=
  let xs := bs.toArray
  if xs.size = 0 then avalancheShort (read64 secret 56 ^^^ read64 secret 64)
  else if xs.size ≤ 3 then hashUpTo3 xs
  else if xs.size ≤ 8 then hash4To8 xs
  else if xs.size ≤ 16 then hash9To16 xs
  else if xs.size ≤ 128 then hash17To128 xs
  else if xs.size ≤ 240 then hash129To240 xs
  else hashLong xs

end TreeCompiler.Xxh3
