import TreeCompiler.Toml.Scalar

/-!
# TOML statements

A document is a list of `TomlStatement`s: headers of tables and assignments. `TomlStatement.parseAll?` reads them; it
knows the grammar only, and leaves it to the document whether a key may be given.
-/

namespace TreeCompiler

/-- A value as written. -/
inductive TomlExpr
  | scalar (v : Toml)
  | array (items : List TomlExpr)
  | inline (entries : List (TomlKey × TomlExpr))
deriving Inhabited

inductive TomlStatement
  | table (key : TomlKey)
  | tables (key : TomlKey)
  | assign (key : TomlKey) (value : TomlExpr)
deriving Inhabited

namespace TomlStatement

open TomlScalar

/-- Drops blanks, line breaks and comments. The flag says that a comment is open. -/
def skipLoose : Bool → List Char → List Char
  | _, [] => []
  | true, c :: r => skipLoose (c ≠ '\n') r
  | false, c :: r =>
    if c = ' ' || c = '\t' || c = '\n' || c = '\r' then skipLoose false r
    else if c = '#' then skipLoose true r
    else c :: r

/-- Names divided by points, with blanks around them. -/
def key? : Nat → List Char → Option (TomlKey × List Char)
  | 0, _ => none
  | fuel + 1, cs => do
    let (name, r) ← keyName? (skipBlanks cs)
    match skipBlanks r with
    | '.' :: r =>
      let (key, r) ← key? fuel r
      return (name :: key, r)
    | r => return ([name], r)

def word? : List Char → Option (Toml × List Char)
  | 't' :: 'r' :: 'u' :: 'e' :: r => some (.bool true, r)
  | 'f' :: 'a' :: 'l' :: 's' :: 'e' :: r => some (.bool false, r)
  | _ => none

mutual
/-- A value. Every argument `fuel` bounds the number of characters that are left. -/
def value? : Nat → List Char → Option (TomlExpr × List Char)
  | 0, _ => none
  | fuel + 1, cs =>
    match skipBlanks cs with
    | '[' :: r => (items? fuel r).map fun (items, r) => (.array items, r)
    | '\x7b' :: r =>
      match skipBlanks r with
      | '\x7d' :: r => some (.inline [], r)
      | r => (entries? fuel r).map fun (entries, r) => (.inline entries, r)
    | c :: r =>
      if c = '\x22' || c = '\x27' then (text? (c :: r)).map fun (s, r) => (.scalar (.text s), r)
      else ((word? (c :: r)).orElse fun _ => number? (c :: r)).map fun (v, r) => (.scalar v, r)
    | [] => none

/-- The items of an array after its opening bracket or a comma. -/
def items? : Nat → List Char → Option (List TomlExpr × List Char)
  | 0, _ => none
  | fuel + 1, cs =>
    match skipLoose false cs with
    | ']' :: r => some ([], r)
    | cs => do
      let (item, r) ← value? fuel cs
      match skipLoose false r with
      | ',' :: r =>
        let (items, r) ← items? fuel r
        return (item :: items, r)
      | ']' :: r => return ([item], r)
      | _ => none

/-- The entries of an inline table, of which there is at least one. They stand on one line. -/
def entries? : Nat → List Char → Option (List (TomlKey × TomlExpr) × List Char)
  | 0, _ => none
  | fuel + 1, cs => do
    let (key, r) ← key? (cs.length + 1) cs
    let (value, r) ← match r with
      | '=' :: r => value? fuel r
      | _ => none
    match skipBlanks r with
    | ',' :: r =>
      let (entries, r) ← entries? fuel r
      return ((key, value) :: entries, r)
    | '\x7d' :: r => return ([(key, value)], r)
    | _ => none
end

/-- What follows the line break that must come next, but for blanks and a comment. -/
def lineEnd? (cs : List Char) : Option (List Char) :=
  match skipBlanks cs with
  | [] => some []
  | '\n' :: r | '\r' :: '\n' :: r => some r
  | '#' :: r => some (r.dropWhile (· ≠ '\n'))
  | _ => none

def statement? (cs : List Char) : Option (TomlStatement × List Char) := do
  let fuel := cs.length + 1
  match cs with
  | '[' :: '[' :: r =>
    let (key, r) ← key? fuel r
    match r with
    | ']' :: ']' :: r => return (.tables key, r)
    | _ => none
  | '[' :: r =>
    let (key, r) ← key? fuel r
    match r with
    | ']' :: r => return (.table key, r)
    | _ => none
  | cs =>
    let (key, r) ← key? fuel cs
    match r with
    | '=' :: r =>
      let (value, r) ← value? fuel r
      return (.assign key value, r)
    | _ => none

def statements? : Nat → List Char → Option (List TomlStatement)
  | 0, _ => none
  | fuel + 1, cs =>
    match skipLoose false cs with
    | [] => some []
    | cs => do
      let (statement, r) ← statement? cs
      return statement :: (← statements? fuel (← lineEnd? r))

def parseAll? (cs : List Char) : Option (List TomlStatement) := statements? (cs.length + 1) cs

end TomlStatement

end TreeCompiler
