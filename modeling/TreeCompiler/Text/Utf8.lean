/-!
# Bytes as text

* `Bytes` : a list of octets, the form in which file contents and wire data are handled;
* `nextChar` : the first character of a byte string, `none` for an octet that starts no valid sequence;
* `decode`, `encode` : the text of a byte string and back. An octet outside a valid sequence is carried through the text
  by a stand-in, one of the last characters of the code space; these characters themselves are carried octet by octet,
  so that texts of different bytes differ;
* `scrub`, `display` : a text with U+FFFD for each octet outside a valid sequence, as a text and as it is seen;
* `textLe` : the order of texts, octet by octet;
* `toHex`, `ofHex?` : lower-case hexadecimal.
-/

namespace TreeCompiler

abbrev Bytes := List UInt8

namespace Utf8

def replacement : Char := Char.ofNat 0xFFFD

/-- A continuation octet within the given bounds. -/
def contIn (lo hi : Nat) (b : UInt8) : Bool := lo ≤ b.toNat && b.toNat ≤ hi

def isCont (b : UInt8) : Bool := contIn 0x80 0xBF b

/-- The low six bits of a continuation octet. -/
def low6 (b : UInt8) : Nat := b.toNat % 64

/-- The first character and what follows it. An octet that starts no well-formed sequence stands alone. -/
def nextChar : Bytes → Option (Option Char × Bytes)
  | [] => none
  | b0 :: rest =>
    let n0 := b0.toNat
    if n0 < 0x80 then some (some (Char.ofNat n0), rest)
    else if 0xC2 ≤ n0 && n0 ≤ 0xDF then
      match rest with
      | b1 :: r => if isCont b1 then some (some (Char.ofNat ((n0 % 32) * 64 + low6 b1)), r) else some (none, rest)
      | [] => some (none, rest)
    else if 0xE0 ≤ n0 && n0 ≤ 0xEF then
      match rest with
      | b1 :: b2 :: r =>
        let lo := if n0 = 0xE0 then 0xA0 else 0x80
        let hi := if n0 = 0xED then 0x9F else 0xBF
        if contIn lo hi b1 && isCont b2 then
          some (some (Char.ofNat ((n0 % 16) * 4096 + low6 b1 * 64 + low6 b2)), r)
        else some (none, rest)
      | _ => some (none, rest)
    else if 0xF0 ≤ n0 && n0 ≤ 0xF4 then
      match rest with
      | b1 :: b2 :: b3 :: r =>
        let lo := if n0 = 0xF0 then 0x90 else 0x80
        let hi := if n0 = 0xF4 then 0x8F else 0xBF
        if contIn lo hi b1 && isCont b2 && isCont b3 then
          some (some (Char.ofNat ((n0 % 8) * 262144 + low6 b1 * 4096 + low6 b2 * 64 + low6 b3)), r)
        else some (none, rest)
      | _ => some (none, rest)
    else some (none, rest)

/-- Characters of a byte string with fuel; `none` marks an octet outside a valid sequence. -/
def charsAux : Nat → Bytes → List (Option Char)
  | 0, _ => []
  | fuel + 1, bs =>
    match nextChar bs with
    | none => []
    | some (c, rest) => c :: charsAux fuel rest

/-- Every step takes at least one octet, so the length bounds the number of steps. -/
def chars (bs : Bytes) : List (Option Char) := charsAux bs.length bs

/-! ## Texts -/

/-- Octets from 0x80 on have their stand-ins from here on. -/
def firstStandIn : Nat := 0x10FF80

def isStandIn (c : Char) : Bool := firstStandIn ≤ c.toNat

def standIn (b : UInt8) : Char := Char.ofNat (firstStandIn - 0x80 + b.toNat)

/-- A character as it is carried in a text. -/
def carried (c : Char) : List Char := if isStandIn c then (String.utf8EncodeChar c).map standIn else [c]

def ofChars (cs : List Char) : String := String.ofList (cs.flatMap carried)

def carriedAux : Nat → Bytes → List Char
  | 0, _ | _, [] => []
  | fuel + 1, b :: bs =>
    match nextChar (b :: bs) with
    | some (some c, rest) => carried c ++ carriedAux fuel rest
    | _ => standIn b :: carriedAux fuel bs

def decode (bs : Bytes) : String := String.ofList (carriedAux bs.length bs)

def encodeChar (c : Char) : Bytes :=
  if isStandIn c then [UInt8.ofNat (c.toNat - (firstStandIn - 0x80))] else String.utf8EncodeChar c

def encode (s : String) : Bytes := s.toList.flatMap encodeChar

/-- The characters of a text; `none` marks an octet outside a valid sequence. -/
def textChars (s : String) : List (Option Char) :=
  if s.toList.any isStandIn then chars (encode s) else s.toList.map some

def orReplacement (cs : List (Option Char)) : List Char := cs.map (·.getD replacement)

/-- The text with U+FFFD in the place of each octet outside a valid sequence. -/
def scrub (s : String) : String := if s.toList.any isStandIn then ofChars (orReplacement (textChars s)) else s

/-- The characters that are seen of a text, none of them carried by stand-ins. -/
def display (s : String) : String :=
  if s.toList.any isStandIn then String.ofList (orReplacement (textChars s)) else s

end Utf8

/-- The order of texts by their octets. -/
def textLe (a b : String) : Bool := !(Utf8.encode b < Utf8.encode a)

def hexDigit (n : Nat) : Char := if n < 10 then Char.ofNat (48 + n) else Char.ofNat (87 + n)

def Bytes.toHex (bs : Bytes) : String :=
  String.ofList (bs.flatMap fun b => [hexDigit (b.toNat / 16), hexDigit (b.toNat % 16)])

def hexValue? (c : Char) : Option Nat :=
  if '0' ≤ c && c ≤ '9' then some (c.toNat - 48)
  else if 'a' ≤ c && c ≤ 'f' then some (c.toNat - 87)
  else if 'A' ≤ c && c ≤ 'F' then some (c.toNat - 55)
  else none

def Bytes.ofHexChars? : List Char → Option Bytes
  | [] => some []
  | [_] => none
  | h :: l :: rest => do
    let a ← hexValue? h
    let b ← hexValue? l
    let tail ← Bytes.ofHexChars? rest
    return UInt8.ofNat (a * 16 + b) :: tail

def Bytes.ofHex? (s : String) : Option Bytes := Bytes.ofHexChars? s.toList

/-- Lower-case hexadecimal digits of a number, without leading zeros. -/
def hexText (n : Nat) : String := String.ofList (Nat.toDigits 16 n)

/-- The parts of a text between blanks and line breaks. -/
def words (s : String) : List String := (s.splitOn "\n").flatMap fun line => (line.splitOn " ").filter (· ≠ "")

/-- Text padded on the left with spaces to a number of characters. -/
def padLeft (width : Nat) (s : String) : String := String.ofList (List.replicate (width - s.length) ' ') ++ s

/-- Text padded on the right with spaces to a number of characters. -/
def padRight (width : Nat) (s : String) : String := s ++ String.ofList (List.replicate (width - s.length) ' ')

/-- A decimal fraction without trailing zeros: `n` over ten to the power `places`. -/
def fraction (n places : Nat) : String :=
  let whole := n / Nat.pow 10 places
  let digits := toString (n % Nat.pow 10 places)
  let padded := String.ofList (List.replicate (places - digits.length) '0') ++ digits
  let kept := String.ofList (padded.toList.reverse.dropWhile (· = '0')).reverse
  toString whole ++ (if kept = "" then "" else "." ++ kept)

end TreeCompiler
