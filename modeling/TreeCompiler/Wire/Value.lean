import TreeCompiler.Text.Utf8

/-!
# The wire format

`Wire` is a self-describing binary value: every value starts with a code octet that tells its kind and, for short ones,
its length or number. Multi-octet numbers are big-endian.

* `encode` : the shortest form of each value;
* `decode?` : reads any form and returns what follows it; `none` for a truncated value or the unused code;
* `extension` : application data, read and skipped.
-/

namespace TreeCompiler

inductive Wire
  | nil
  | bool (b : Bool)
  | int (n : Int)
  | single (bits : UInt32)
  | real (bits : UInt64)
  | text (bytes : Bytes)
  | blob (bytes : Bytes)
  | array (items : List Wire)
  | map (entries : List (Wire × Wire))
  | extension (data : Bytes)
deriving Inhabited

namespace Wire

/-- The low `count` octets of a number, the highest first. -/
def bigEndian : Nat → Nat → Bytes
  | 0, _ => []
  | count + 1, n => UInt8.ofNat (n / Nat.pow 256 count) :: bigEndian count n

def ofBigEndian (bs : Bytes) : Nat := bs.foldl (fun n b => n * 256 + b.toNat) 0

def encodeNat (n : Nat) : Bytes :=
  if n ≤ 127 then bigEndian 1 n
  else if n < Nat.pow 2 8 then 0xcc :: bigEndian 1 n
  else if n < Nat.pow 2 16 then 0xcd :: bigEndian 2 n
  else if n < Nat.pow 2 32 then 0xce :: bigEndian 4 n
  else 0xcf :: bigEndian 8 n

/-- Two's complement in `8 * count` bits. -/
def twosComplement (count : Nat) (n : Int) : Nat := (n % (Nat.pow 256 count : Nat)).toNat

def encodeInt (n : Int) : Bytes :=
  if 0 ≤ n then encodeNat n.toNat
  else if -32 ≤ n then bigEndian 1 (twosComplement 1 n)
  else if -(Nat.pow 2 7 : Int) ≤ n then 0xd0 :: bigEndian 1 (twosComplement 1 n)
  else if -(Nat.pow 2 15 : Int) ≤ n then 0xd1 :: bigEndian 2 (twosComplement 2 n)
  else if -(Nat.pow 2 31 : Int) ≤ n then 0xd2 :: bigEndian 4 (twosComplement 4 n)
  else 0xd3 :: bigEndian 8 (twosComplement 8 n)

/-- The head of a text of that many octets. -/
def textHead (n : Nat) : Bytes :=
  if n < 32 then [UInt8.ofNat (0xa0 + n)]
  else if n < Nat.pow 2 8 then 0xd9 :: bigEndian 1 n
  else if n < Nat.pow 2 16 then 0xda :: bigEndian 2 n
  else 0xdb :: bigEndian 4 n

def blobHead (n : Nat) : Bytes :=
  if n < Nat.pow 2 8 then 0xc4 :: bigEndian 1 n
  else if n < Nat.pow 2 16 then 0xc5 :: bigEndian 2 n
  else 0xc6 :: bigEndian 4 n

def arrayHead (n : Nat) : Bytes :=
  if n < 16 then [UInt8.ofNat (0x90 + n)]
  else if n < Nat.pow 2 16 then 0xdc :: bigEndian 2 n
  else 0xdd :: bigEndian 4 n

def mapHead (n : Nat) : Bytes :=
  if n < 16 then [UInt8.ofNat (0x80 + n)]
  else if n < Nat.pow 2 16 then 0xde :: bigEndian 2 n
  else 0xdf :: bigEndian 4 n

mutual

def encode : Wire → Bytes
  | nil => [0xc0]
  | bool b => [if b then 0xc3 else 0xc2]
  | int n => encodeInt n
  | single bits => 0xca :: bigEndian 4 bits.toNat
  | real bits => 0xcb :: bigEndian 8 bits.toNat
  | text bs => textHead bs.length ++ bs
  | blob bs => blobHead bs.length ++ bs
  | array items => arrayHead items.length ++ encodeAll items
  | map entries => mapHead entries.length ++ encodeEntries entries
  | extension data => 0xc7 :: bigEndian 1 data.length ++ 0 :: data

def encodeAll : List Wire → Bytes
  | [] => []
  | w :: rest => encode w ++ encodeAll rest

def encodeEntries : List (Wire × Wire) → Bytes
  | [] => []
  | (k, v) :: rest => encode k ++ encode v ++ encodeEntries rest

end

/-! ## Reading -/

/-- The first `n` octets and the rest; none when there are fewer. -/
def take? (n : Nat) (bs : Bytes) : Option (Bytes × Bytes) :=
  let head := bs.take n
  if head.length = n then some (head, bs.drop n) else none

def nat? (count : Nat) (bs : Bytes) : Option (Nat × Bytes) := (take? count bs).map fun (h, r) => (ofBigEndian h, r)

def unsigned? (count : Nat) (bs : Bytes) : Option (Wire × Bytes) := (nat? count bs).map fun (n, r) => (int n, r)

def signed? (count : Nat) (bs : Bytes) : Option (Wire × Bytes) :=
  (nat? count bs).map fun (n, r) => (int (if n < Nat.pow 256 count / 2 then (n : Int) else (n : Int) - (Nat.pow 256 count : Nat)), r)

/-- A value that is a length in `count` octets and that many octets. -/
def counted? (make : Bytes → Wire) (count : Nat) (bs : Bytes) : Option (Wire × Bytes) := do
  let (n, r) ← nat? count bs
  let (data, r) ← take? n r
  return (make data, r)

/-- Application data of a known length behind its tag. -/
def tagged? (n : Nat) (bs : Bytes) : Option (Wire × Bytes) := do
  let (_, r) ← take? 1 bs
  let (data, r) ← take? n r
  return (extension data, r)

/-- `n` values with the given reader. -/
def items? (read : Bytes → Option (Wire × Bytes)) : Nat → Bytes → Option (List Wire × Bytes)
  | 0, bs => some ([], bs)
  | n + 1, bs => do
    let (w, r) ← read bs
    let (ws, r) ← items? read n r
    return (w :: ws, r)

def entries? (read : Bytes → Option (Wire × Bytes)) : Nat → Bytes → Option (List (Wire × Wire) × Bytes)
  | 0, bs => some ([], bs)
  | n + 1, bs => do
    let (k, r) ← read bs
    let (v, r) ← read r
    let (es, r) ← entries? read n r
    return ((k, v) :: es, r)

def array? (read : Bytes → Option (Wire × Bytes)) (n : Nat) (bs : Bytes) : Option (Wire × Bytes) :=
  (items? read n bs).map fun (ws, r) => (array ws, r)

def map? (read : Bytes → Option (Wire × Bytes)) (n : Nat) (bs : Bytes) : Option (Wire × Bytes) :=
  (entries? read n bs).map fun (es, r) => (map es, r)

/-- What follows the code octet `c`, with a reader for nested values. -/
def body? (read : Bytes → Option (Wire × Bytes)) (c : Nat) (bs : Bytes) : Option (Wire × Bytes) :=
  if c ≤ 0x7f then some (int c, bs)
  else if c ≤ 0x8f then map? read (c - 0x80) bs
  else if c ≤ 0x9f then array? read (c - 0x90) bs
  else if c ≤ 0xbf then (take? (c - 0xa0) bs).map fun (h, r) => (text h, r)
  else if 0xe0 ≤ c then some (int ((c : Int) - 256), bs)
  else match c with
    | 0xc0 => some (nil, bs)
    | 0xc2 => some (bool false, bs)
    | 0xc3 => some (bool true, bs)
    | 0xc4 => counted? blob 1 bs
    | 0xc5 => counted? blob 2 bs
    | 0xc6 => counted? blob 4 bs
    | 0xc7 => do
      let (n, r) ← nat? 1 bs
      tagged? n r
    | 0xc8 => do
      let (n, r) ← nat? 2 bs
      tagged? n r
    | 0xc9 => do
      let (n, r) ← nat? 4 bs
      tagged? n r
    | 0xca => (nat? 4 bs).map fun (n, r) => (single (UInt32.ofNat n), r)
    | 0xcb => (nat? 8 bs).map fun (n, r) => (real (UInt64.ofNat n), r)
    | 0xcc => unsigned? 1 bs
    | 0xcd => unsigned? 2 bs
    | 0xce => unsigned? 4 bs
    | 0xcf => unsigned? 8 bs
    | 0xd0 => signed? 1 bs
    | 0xd1 => signed? 2 bs
    | 0xd2 => signed? 4 bs
    | 0xd3 => signed? 8 bs
    | 0xd4 => tagged? 1 bs
    | 0xd5 => tagged? 2 bs
    | 0xd6 => tagged? 4 bs
    | 0xd7 => tagged? 8 bs
    | 0xd8 => tagged? 16 bs
    | 0xd9 => counted? text 1 bs
    | 0xda => counted? text 2 bs
    | 0xdb => counted? text 4 bs
    | 0xdc => do
      let (n, r) ← nat? 2 bs
      array? read n r
    | 0xdd => do
      let (n, r) ← nat? 4 bs
      array? read n r
    | 0xde => do
      let (n, r) ← nat? 2 bs
      map? read n r
    | 0xdf => do
      let (n, r) ← nat? 4 bs
      map? read n r
    | _ => none

def decodeAux : Nat → Bytes → Option (Wire × Bytes)
  | 0, _ => none
  | _ + 1, [] => none
  | fuel + 1, c :: rest => body? (decodeAux fuel) c.toNat rest

/-- Each level of nesting takes an octet, so the length bounds the depth. -/
def decode? (bs : Bytes) : Option (Wire × Bytes) := decodeAux (bs.length + 1) bs

end Wire

end TreeCompiler
