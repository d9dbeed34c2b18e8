import TreeCompiler.Text.Ranges
import TreeCompiler.Text.PrintableData

/-!
# Quoted text

* `quote` : a text between double quotes. Printable characters stand for themselves; quotes, backslashes and the usual
  control characters are escaped by letter, the rest by number, and an octet that belongs to no character by its own;
* `quoteRaw` : a text between grave accents as it is, if it can stand there, else as `quote` writes it.
-/

namespace TreeCompiler

def printableRanges : Ranges := Ranges.ofText Printable.rangeData

def isPrintable (c : Char) : Bool :=
  if c.toNat < 0x80 then 0x20 ≤ c.toNat && c.toNat < 0x7F else printableRanges.contains c.toNat

/-- Hexadecimal digits with leading zeros. -/
def hexPadded (width n : Nat) : String :=
  let s := hexText n
  String.ofList (List.replicate (width - s.length) '0') ++ s

def quoteChar (c : Char) : String :=
  match c.toNat with
  | 0x22 => "\\\""
  | 0x5C => "\\\\"
  | 7 => "\\a"
  | 8 => "\\b"
  | 12 => "\\f"
  | 10 => "\\n"
  | 13 => "\\r"
  | 9 => "\\t"
  | 11 => "\\v"
  | n =>
    if isPrintable c then String.singleton c
    else if n < 0x20 || n = 0x7F then "\\x" ++ hexPadded 2 n
    else if n < 0x10000 then "\\u" ++ hexPadded 4 n
    else "\\U" ++ hexPadded 8 n

def octetEscape (b : UInt8) : String := "\\x" ++ hexPadded 2 b.toNat

def quoteAux : Nat → Bytes → List String
  | 0, _ | _, [] => []
  | fuel + 1, b :: bs =>
    match Utf8.nextChar (b :: bs) with
    | some (some c, rest) => quoteChar c :: quoteAux fuel rest
    | _ => octetEscape b :: quoteAux fuel bs

/-- A text without stand-ins is quoted character by character. -/
def quoteParts (s : String) : List String :=
  if s.toList.any Utf8.isStandIn then
    let bs := Utf8.encode s
    quoteAux bs.length bs
  else s.toList.map quoteChar

def quote (s : String) : String := "\"" ++ String.join (quoteParts s) ++ "\""

def graveAccent : Char := Char.ofNat 0x60

/-- Neither a grave accent nor a control character but the tab, nor a mark of the byte order, nor a broken octet. -/
def standsRaw : Option Char → Bool
  | none => false
  | some c =>
    let n := c.toNat
    c ≠ graveAccent && (c = '\t' || 0x20 ≤ n) && n ≠ 0x7F && n ≠ 0xFEFF

def quoteRaw (s : String) : String :=
  if (Utf8.textChars s).all standsRaw then String.singleton graveAccent ++ s ++ String.singleton graveAccent
  else quote s

end TreeCompiler
