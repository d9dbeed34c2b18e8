/-!
# The shortest decimal of a real

A finite double is `m * 2 ^ q`. The reals that round to it form an interval, its ends included when `m` is even. The
shortest decimal is the one with the fewest digits inside that interval, and of several the nearest to the value.

* `Binary.ofBits` : `m` and `q` of a positive double;
* `shortest` : the digits and the decimal exponent, found digit count by digit count in exact arithmetic.
-/

namespace TreeCompiler.Number

/-- `mant * 2 ^ exp`. A power of two has a neighbour below at half the distance, so its interval is `narrow` there. -/
structure Binary where
  mant : Nat
  exp : Int
  narrow : Bool
deriving DecidableEq, Repr, Inhabited

namespace Binary

/-- The magnitude of a finite double from its bits. -/
def ofBits (bits : UInt64) : Binary :=
  let n := bits.toNat
  let frac := n % Nat.pow 2 52
  let e : Nat := n / Nat.pow 2 52 % Nat.pow 2 11
  if e = 0 then { mant := frac, exp := -1074, narrow := false }
  else { mant := Nat.pow 2 52 + frac, exp := (e : Int) - 1075, narrow := frac = 0 && 1 < e }

end Binary

/-- `digits * 10 ^ exp`. -/
structure Decimal where
  digits : Nat
  exp : Int
deriving DecidableEq, Repr, Inhabited

/-- A value and the ends of its rounding interval, all over one denominator. -/
structure Interval where
  value : Nat
  low : Nat
  high : Nat
  den : Nat
  closed : Bool
deriving Repr, Inhabited

namespace Interval

def ofBinary (b : Binary) : Interval :=
  let scale := Nat.pow 2 b.exp.toNat
  { value := 4 * b.mant * scale
    low := 4 * b.mant * scale - (if b.narrow then 1 else 2) * scale
    high := 4 * b.mant * scale + 2 * scale
    den := 4 * Nat.pow 2 (-b.exp).toNat
    closed := b.mant % 2 = 0 }

/-- The power of ten of the leading digit. -/
def leading (i : Interval) : Int :=
  let whole := i.value / i.den
  if 0 < whole then ((Nat.toDigits 10 whole).length : Int) - 1
  else match (List.range 400).find? fun j => i.den ≤ i.value * Nat.pow 10 j with
    | some j => -(j : Int)
    | none => 0

/-- Compares `c * 10 ^ p` with `x / den`. -/
def compareTo (i : Interval) (c : Nat) (p : Int) (x : Nat) : Ordering :=
  compare (c * Nat.pow 10 p.toNat * i.den) (x * Nat.pow 10 (-p).toNat)

def contains (i : Interval) (c : Nat) (p : Int) : Bool :=
  match i.compareTo c p i.low, i.compareTo c p i.high with
  | .gt, .lt => true
  | .eq, .lt | .gt, .eq => i.closed
  | _, _ => false

/-- The largest multiple of `10 ^ p` that is not above the value. -/
def floorAt (i : Interval) (p : Int) : Nat := i.value * Nat.pow 10 (-p).toNat / (i.den * Nat.pow 10 p.toNat)

/-- Of the two multiples of `10 ^ p` around the value, the nearer one that lies in the interval. -/
def pick? (i : Interval) (p : Int) : Option Nat :=
  let c := i.floorAt p
  match i.contains c p, i.contains (c + 1) p with
  | true, false => some c
  | false, true => some (c + 1)
  | false, false => none
  | true, true =>
    match i.compareTo (2 * c + 1) p (2 * i.value) with
    | .gt => some c
    | .lt => some (c + 1)
    | .eq => some (if c % 2 = 0 then c else c + 1)

end Interval

/-- The shortest decimal of the magnitude of a finite double that is not zero. -/
def shortest (bits : UInt64) : Decimal :=
  let i := Interval.ofBinary (Binary.ofBits bits)
  let top := i.leading
  match (List.range 17).findSome? fun (n : Nat) =>
    let p := top - (n : Int)
    (i.pick? p).map fun c => { digits := c, exp := p : Decimal } with
  | some d => d
  | none => { digits := i.floorAt (top - 16), exp := top - 16 }

/-- How the text of a real is laid out: positional while the power of ten of the leading digit lies from `least` up to but
not including `bound`, with an exponent of at least two digits otherwise. -/
structure Layout where
  least : Int
  bound : Int
deriving DecidableEq, Repr, Inhabited

/-- Digits without the zeros at their end. -/
def trimZeros (ds : List Char) : List Char := (ds.reverse.dropWhile (· = '0')).reverse

namespace Layout

/-- Digits `ds` with the point after position `point`. -/
def positional (ds : List Char) (point : Int) : String :=
  if point ≤ 0 then "0." ++ String.ofList (List.replicate (-point).toNat '0' ++ ds)
  else
    let k := point.toNat
    let whole := ds.take k ++ List.replicate (k - ds.length) '0'
    String.ofList whole ++ (if ds.length ≤ k then "" else "." ++ String.ofList (ds.drop k))

def scientific (ds : List Char) (exp : Int) : String :=
  let head := String.ofList (ds.take 1) ++ (if ds.length ≤ 1 then "" else "." ++ String.ofList (ds.drop 1))
  let size := toString exp.natAbs
  head ++ "e" ++ (if exp < 0 then "-" else "+") ++ (if size.length < 2 then "0" else "") ++ size

def magnitude (l : Layout) (bits : UInt64) : String :=
  let d := shortest bits
  let all := Nat.toDigits 10 d.digits
  let exp := (all.length : Int) - 1 + d.exp
  let ds := trimZeros all
  if exp < l.least || l.bound ≤ exp then scientific ds exp else positional ds (exp + 1)

/-- The text of any double. -/
def render (l : Layout) (bits : UInt64) : String :=
  let n := bits.toNat
  let negative := Nat.pow 2 63 ≤ n
  let magnitude := n % Nat.pow 2 63
  if magnitude = 0x7FF * Nat.pow 2 52 then (if negative then "-Inf" else "+Inf")
  else if 0x7FF * Nat.pow 2 52 < magnitude then "NaN"
  else (if negative then "-" else "") ++ (if magnitude = 0 then "0" else l.magnitude (UInt64.ofNat magnitude))

end Layout

end TreeCompiler.Number
