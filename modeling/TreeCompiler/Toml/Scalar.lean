import TreeCompiler.Toml.Value

/-!
# TOML scalars

Each reader takes the characters of a value and gives what follows it.

* `lineText`, `blockText`, `rawLine`, `rawBlock` : the four kinds of text, after their opening quotes;
* `number?` : integers, reals and dates, which share their beginning;
* `keyName?` : one name of a key.
-/

namespace TreeCompiler.TomlScalar

def skipBlanks (cs : List Char) : List Char := cs.dropWhile fun c => c = ' ' || c = '\t'

/-! ## Texts -/

def scalarValue? (digits : List Char) : Option Char := do
  let n ← digits.foldlM (fun n c => do return n * 16 + (← hexValue? c)) 0
  if n < 0xD800 || (0xDFFF < n && n < 0x110000) then some (Char.ofNat n) else none

/-- The character for which an escape stands, after its backslash. -/
def escape? : List Char → Option (Char × List Char)
  | 'b' :: r => some (Char.ofNat 8, r)
  | 't' :: r => some ('\t', r)
  | 'n' :: r => some ('\n', r)
  | 'f' :: r => some (Char.ofNat 12, r)
  | 'r' :: r => some ('\r', r)
  | '\x22' :: r => some ('\x22', r)
  | '\\' :: r => some ('\\', r)
  | 'u' :: r => if r.length < 4 then none else do return (← scalarValue? (r.take 4), r.drop 4)
  | 'U' :: r => if r.length < 8 then none else do return (← scalarValue? (r.take 8), r.drop 8)
  | _ => none

/-- Text up to the closing quote; it ends on its line. The first argument bounds the number of characters. -/
def lineText : Nat → List Char → Option (List Char × List Char)
  | 0, _ => none
  | _, [] => none
  | fuel + 1, c :: r =>
    if c = '\x22' then some ([], r)
    else if c = '\n' || c = '\r' then none
    else do
      let (c, r) ← if c = '\\' then escape? r else some (c, r)
      let (s, r) ← lineText fuel r
      return (c :: s, r)

def rawLine : List Char → Option (List Char × List Char)
  | [] => none
  | c :: r =>
    if c = '\x27' then some ([], r)
    else if c = '\n' || c = '\r' then none
    else do
      let (s, r) ← rawLine r
      return (c :: s, r)

/-- A line break right after the opening quotes is not part of the text. -/
def afterFirstBreak : List Char → List Char
  | '\n' :: r => r
  | '\r' :: '\n' :: r => r
  | cs => cs

/-- Whether two quotes have been taken into the text already, so that four more are too many. -/
def isCrowded (quote : Char) (taken : List Char) : Bool :=
  match taken with
  | a :: b :: before => a = quote && b = quote && (quote = '\x27' || before.head? ≠ some '\\')
  | _ => false

/-- Text over several lines up to three closing quotes. One or two quotes right before these belong to the text.
`taken` holds the characters as written so far, last first. -/
def blockText : Nat → List Char → List Char → Option (List Char × List Char)
  | 0, _, _ => none
  | _, _, [] => none
  | fuel + 1, taken, c :: r =>
    if c = '\x22' then
      match r with
      | '\x22' :: '\x22' :: after =>
        if after.head? ≠ some '\x22' then some ([], after)
        else if isCrowded '\x22' taken then none
        else (blockText fuel (c :: taken) r).map fun (s, r) => (c :: s, r)
      | _ => (blockText fuel (c :: taken) r).map fun (s, r) => (c :: s, r)
    else if c = '\\' then
      let gap := r.takeWhile fun d => d = ' ' || d = '\t' || d = '\r' || d = '\n'
      if gap.contains '\n' then blockText fuel (gap.reverse ++ c :: taken) (r.drop gap.length)
      else do
        let (d, rest) ← escape? r
        let written := r.take (r.length - rest.length)
        let (s, rest) ← blockText fuel (written.reverse ++ c :: taken) rest
        return (d :: s, rest)
    else (blockText fuel (c :: taken) r).map fun (s, r) => (c :: s, r)

def rawBlock : List Char → List Char → Option (List Char × List Char)
  | _, [] => none
  | taken, c :: r =>
    if c = '\x27' then
      match r with
      | '\x27' :: '\x27' :: after =>
        if after.head? ≠ some '\x27' then some ([], after)
        else if isCrowded '\x27' taken then none
        else (rawBlock (c :: taken) r).map fun (s, r) => (c :: s, r)
      | _ => (rawBlock (c :: taken) r).map fun (s, r) => (c :: s, r)
    else (rawBlock (c :: taken) r).map fun (s, r) => (c :: s, r)

/-- A text of any kind, with its opening quotes. -/
def text? : List Char → Option (String × List Char)
  | '\x22' :: '\x22' :: '\x22' :: r =>
    (blockText (r.length + 1) [] (afterFirstBreak r)).map fun (s, r) => (Utf8.ofChars s, r)
  | '\x27' :: '\x27' :: '\x27' :: r => (rawBlock [] (afterFirstBreak r)).map fun (s, r) => (Utf8.ofChars s, r)
  | '\x22' :: r => (lineText (r.length + 1) r).map fun (s, r) => (Utf8.ofChars s, r)
  | '\x27' :: r => (rawLine r).map fun (s, r) => (Utf8.ofChars s, r)
  | _ => none

/-- One name of a key: bare, or a text on one line. -/
def keyName? : List Char → Option (String × List Char)
  | '\x22' :: r => (lineText (r.length + 1) r).map fun (s, r) => (Utf8.ofChars s, r)
  | '\x27' :: r => (rawLine r).map fun (s, r) => (Utf8.ofChars s, r)
  | cs =>
    let name := cs.takeWhile isBareKeyChar
    if name.isEmpty then none else some (String.ofList name, cs.drop name.length)

/-! ## Integers -/

/-- Every underscore stands between two digits. -/
def underscoresOk (cs : List Char) : Bool :=
  let step (state : Bool × Bool) (c : Char) : Bool × Bool :=
    (state.1 && (c ≠ '_' || state.2), (hexValue? c).isSome)
  let (ok, last) := cs.foldl step (true, false)
  ok && last

def hasLeadingZero (cs : List Char) : Bool :=
  match cs with
  | '0' :: c :: _ => c ≠ 'b' && c ≠ 'o' && c ≠ 'x'
  | '+' :: '0' :: _ :: _ | '-' :: '0' :: _ :: _ => true
  | _ => false

def digitsValue (base : Nat) (cs : List Char) : Nat :=
  (cs.filter (· ≠ '_')).foldl (fun n c => n * base + (hexValue? c).getD 0) 0

def inRange? (n : Int) : Option Toml := if -(Nat.pow 2 63 : Int) ≤ n && n < (Nat.pow 2 63 : Int) then some (.int n) else none

def decimal? (cs : List Char) : Option Toml :=
  if !underscoresOk cs || hasLeadingZero cs then none
  else match cs with
    | '-' :: digits => inRange? (-(digitsValue 10 digits : Int))
    | '+' :: digits => inRange? (digitsValue 10 digits)
    | digits => inRange? (digitsValue 10 digits)

/-- An integer in another base, after its mark. At least one digit follows the mark. -/
def based? (base : Nat) (cs : List Char) : Option (Toml × List Char) :=
  let isDigit (c : Char) : Bool := (hexValue? c).any (· < base)
  let digits := cs.takeWhile fun c => isDigit c || c = '_'
  if digits.head?.any isDigit && underscoresOk digits then do
    return (← inRange? (digitsValue base digits), cs.drop digits.length)
  else none

/-! ## Reals -/

/-- The least magnitude that is rounded beyond the largest double. -/
def overflowAt : Nat := Nat.pow 2 1024 - Nat.pow 2 970

/-- Whether `mantissa` times ten to the power `exponent` is within the doubles. -/
def fitsDouble (mantissa : Nat) (exponent : Int) : Bool :=
  let places : Int := (toString mantissa).length + exponent
  if mantissa = 0 || places < 308 then true
  else if 310 < places then false
  else if 0 ≤ exponent then mantissa * Nat.pow 10 exponent.toNat < overflowAt
  else mantissa < overflowAt * Nat.pow 10 (-exponent).toNat

/-- Sign, digits, an optional fraction and an optional exponent, each with at least one digit. -/
def isDecimal (cs : List Char) : Bool :=
  let cs := match cs with
    | '+' :: r | '-' :: r => r
    | r => r
  let whole := cs.takeWhile Char.isDigit
  let afterWhole := cs.drop whole.length
  let (frac, rest, fracOk) := match afterWhole with
    | '.' :: r =>
      let f := r.takeWhile Char.isDigit
      (f, r.drop f.length, !f.isEmpty)
    | r => ([], r, true)
  let (exponent, expOk) : Int × Bool := match rest with
    | [] => (0, true)
    | c :: r =>
      if c ≠ 'e' && c ≠ 'E' then (0, false)
      else
        let (negative, ds) := match r with
          | '-' :: ds => (true, ds)
          | '+' :: ds => (false, ds)
          | ds => (false, ds)
        let n : Int := digitsValue 10 ds
        (if negative then -n else n, !ds.isEmpty && ds.all Char.isDigit)
  !whole.isEmpty && fracOk && expOk && fitsDouble (digitsValue 10 (whole ++ frac)) (exponent - frac.length)

/-- The parts between points and exponent marks. -/
def realParts (cs : List Char) : List (List Char) :=
  (cs.foldr (fun c (acc : List (List Char)) =>
    if c = '.' || c = 'e' || c = 'E' then [] :: acc
    else match acc with
      | part :: rest => (c :: part) :: rest
      | [] => [[c]]) [[]]).filter (!·.isEmpty)

def real? (cs : List Char) : Option Toml :=
  let parts := realParts cs
  if parts.all underscoresOk && !hasLeadingZero (parts.headD []) && isDecimal (cs.filter (· ≠ '_')) then
    some (.real (String.ofList cs))
  else none

/-! ## Dates -/

def twoDigits? : List Char → Option (Nat × List Char)
  | a :: b :: r => if a.isDigit && b.isDigit then some (digitsValue 10 [a, b], r) else none
  | _ => none

def expect? (c : Char) : List Char → Option (List Char)
  | d :: r => if c = d then some r else none
  | [] => none

def daysIn (year month : Nat) : Nat :=
  if month = 2 then (if year % 4 = 0 && (year % 100 ≠ 0 || year % 400 = 0) then 29 else 28)
  else if month = 4 || month = 6 || month = 9 || month = 11 then 30 else 31

/-- Year, month and day. -/
def calendar? (cs : List Char) : Option (List Char) := do
  let (century, r) ← twoDigits? cs
  let (year, r) ← twoDigits? r
  let (month, r) ← twoDigits? (← expect? '-' r)
  let (day, r) ← twoDigits? (← expect? '-' r)
  if 1 ≤ month && month ≤ 12 && 1 ≤ day && day ≤ daysIn (century * 100 + year) month then some r else none

/-- Hours, of which one digit is enough, minutes, seconds and an optional fraction. -/
def clock? (cs : List Char) : Option (List Char) := do
  let (hour, r) ← match twoDigits? cs, cs with
    | some found, _ => some found
    | none, c :: r => if c.isDigit then some (digitsValue 10 [c], r) else none
    | none, [] => none
  let (minute, r) ← twoDigits? (← expect? ':' r)
  let (second, r) ← twoDigits? (← expect? ':' r)
  if 24 ≤ hour || 60 ≤ minute || 60 ≤ second then none
  else match r with
    | '.' :: d :: rest => if d.isDigit then some (rest.dropWhile Char.isDigit) else some r
    | _ => some r

def offset? : List Char → Option (List Char)
  | 'Z' :: r => some r
  | sign :: r => do
    let (hour, r) ← twoDigits? r
    let (minute, r) ← twoDigits? (← expect? ':' r)
    if (sign = '+' || sign = '-') && hour ≤ 24 && minute ≤ 60 then some r else none
  | [] => none

/-- A date with or without a time of day, which may have an offset, or a time of day alone. -/
def isDate (cs : List Char) : Bool :=
  match calendar? cs with
  | some [] => true
  | some ('T' :: r) =>
    match clock? r with
    | some [] => true
    | some r => offset? r = some []
    | none => false
  | some _ => false
  | none => clock? cs = some []

def date? (cs : List Char) : Option Toml :=
  let canon := cs.map fun c => if c = 't' || c = ' ' then 'T' else if c = 'z' then 'Z' else c
  if isDate canon then some (.date (String.ofList cs)) else none

/-! ## What begins with a digit or a sign -/

def isRealChar (c : Char) : Bool := c.isDigit || c = '_' || c = '.' || c = '-' || c = '+' || c = 'e' || c = 'E'

def isDateChar (c : Char) : Bool :=
  c.isDigit || c = '-' || c = ':' || c = 'T' || c = 't' || c = ' ' || c = '.' || c = 'Z' || c = 'z' || c = '+'

/-- A decimal integer or a real. `lead` is what has been taken already. -/
def integerOrReal? (lead cs : List Char) : Option (Toml × List Char) :=
  let digits := cs.takeWhile fun c => c.isDigit || c = '_'
  let rest := cs.drop digits.length
  if rest.head? = some '.' || rest.head? = some 'e' || rest.head? = some 'E' then
    let more := rest.takeWhile isRealChar
    (real? (lead ++ digits ++ more)).map fun v => (v, rest.drop more.length)
  else (decimal? (lead ++ digits)).map fun v => (v, rest)

def special? (lead : List Char) : List Char → Option (Toml × List Char)
  | 'i' :: 'n' :: 'f' :: r => some (.real (String.ofList (lead ++ ['i', 'n', 'f'])), r)
  | 'n' :: 'a' :: 'n' :: r => some (.real (String.ofList (lead ++ ['n', 'a', 'n'])), r)
  | _ => none

/-- A date when a `-` or `:` follows the digits; a single zero begins no date. -/
def unsigned? (cs : List Char) : Option (Toml × List Char) :=
  let digits := cs.takeWhile Char.isDigit
  let rest := cs.drop digits.length
  if digits ≠ ['0'] && (rest.head? = some '-' || rest.head? = some ':') then
    let span := cs.takeWhile isDateChar
    let written := (span.reverse.dropWhile (· = ' ')).reverse
    (date? written).map fun v => (v, cs.drop span.length)
  else integerOrReal? [] cs

def number? : List Char → Option (Toml × List Char)
  | '0' :: 'x' :: r => based? 16 r
  | '0' :: 'o' :: r => based? 8 r
  | '0' :: 'b' :: r => based? 2 r
  | c :: r =>
    if c.isDigit then unsigned? (c :: r)
    else if c = '+' || c = '-' then
      match r with
      | d :: _ => if d.isDigit then integerOrReal? [c] r else special? [c] r
      | [] => none
    else special? [] (c :: r)
  | [] => none

end TreeCompiler.TomlScalar
