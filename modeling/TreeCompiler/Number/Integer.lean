import TreeCompiler.Text.Quoted

/-!
# Whole numbers as text

`readInteger` reads a signed number of 64 bits in the notation of source code: a mark after a leading zero gives the
base, a zero without a mark makes it octal, and underscores may divide digits.
-/

namespace TreeCompiler

inductive IntegerError
  | malformed
  | outOfRange
deriving DecidableEq, Repr, Inhabited

def IntegerError.text : IntegerError → String
  | .malformed => "invalid syntax"
  | .outOfRange => "value out of range"

/-- The base of unsigned digits, whether they carry a mark, and the digits behind it. -/
def integerBase : List Char → Nat × Bool × List Char
  | '0' :: c :: d :: rest =>
    match c.toLower with
    | 'b' => (2, true, d :: rest)
    | 'o' => (8, true, d :: rest)
    | 'x' => (16, true, d :: rest)
    | _ => (8, false, c :: d :: rest)
  | '0' :: rest => (8, false, rest)
  | digits => (10, false, digits)

/-- Whether every underscore follows a digit, or the mark of a base, and stands before a digit. `last` is set after a
digit, and none after an underscore. -/
def underscoresBetween (last : Option Bool) : List Char → Bool
  | [] => last.isSome
  | '_' :: rest => last = some true && underscoresBetween none rest
  | _ :: rest => underscoresBetween (some true) rest

/-- The value of digits; an underscore has none. -/
def integerDigits (base : Nat) (n : Nat) : List Char → Except IntegerError Nat
  | [] => .ok n
  | c :: rest =>
    if c = '_' then integerDigits base n rest
    else match hexValue? c with
      | none => .error .malformed
      | some d =>
        if base ≤ d then .error .malformed
        else if Nat.pow 2 64 ≤ n * base + d then .error .outOfRange
        else integerDigits base (n * base + d) rest

def readNatural (cs : List Char) : Except IntegerError Nat := do
  if cs.isEmpty then throw .malformed
  let (base, marked, digits) := integerBase cs
  let n ← integerDigits base 0 digits
  if underscoresBetween (some (marked || digits.length < cs.length)) digits then return n else throw .malformed

def readInteger (s : String) : Except IntegerError Int := do
  let (negative, digits) := match s.toList with
    | '-' :: rest => (true, rest)
    | '+' :: rest => (false, rest)
    | rest => (false, rest)
  let n ← readNatural digits
  if negative then (if n ≤ Nat.pow 2 63 then return -(n : Int) else throw .outOfRange)
  else if n < Nat.pow 2 63 then return n
  else throw .outOfRange

end TreeCompiler
