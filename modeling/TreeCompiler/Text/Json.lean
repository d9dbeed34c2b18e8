import TreeCompiler.Text.Quoted

/-!
# Documents in JSON

`Json` is a document whose members keep their order.

* `compact`, `indented` : the text on one line, or with two blanks for each level. In strings the characters that are
  unsafe in markup are escaped too;
* `field`, `asText`, `asInt`, … : reading. What is missing or of another kind reads as empty.
-/

namespace TreeCompiler

inductive Json
  | null
  | bool (b : Bool)
  | int (n : Int)
  | number (digits : String)
  | text (s : String)
  | list (items : List Json)
  | object (members : List (String × Json))
deriving Inhabited

namespace Json

/-! ## Reading -/

def field (j : Json) (key : String) : Json :=
  match j with
  | object members => (members.lookup key).getD null
  | _ => null

def isNull : Json → Bool
  | null => true
  | _ => false

def asText : Json → String
  | text s => s
  | _ => ""

def asInt : Json → Int
  | int n => n
  | _ => 0

def asNat (j : Json) : Nat := j.asInt.toNat

/-- The number without sign in that many bits. -/
def asWord (bits : Nat) (j : Json) : Nat := (j.asInt % ((Nat.pow 2 bits : Nat) : Int)).toNat

def asBool : Json → Bool
  | bool b => b
  | _ => false

def asList : Json → List Json
  | list items => items
  | _ => []

def asMembers : Json → List (String × Json)
  | object members => members
  | _ => []

def asTexts (j : Json) : List String := j.asList.map asText

/-- The text of a member. -/
def str (j : Json) (key : String) : String := (j.field key).asText

/-- The number of a member. -/
def num (j : Json) (key : String) : Int := (j.field key).asInt

/-- The truth value of a member. -/
def flag (j : Json) (key : String) : Bool := (j.field key).asBool

mutual
/-- How deep lists and objects are nested. -/
def depth : Json → Nat
  | list items => depthAll items + 1
  | object members => depthMembers members + 1
  | _ => 1

def depthAll : List Json → Nat
  | [] => 0
  | j :: rest => max (depth j) (depthAll rest)

def depthMembers : List (String × Json) → Nat
  | [] => 0
  | (_, v) :: rest => max (depth v) (depthMembers rest)
end

/-! ## Building -/

def nat (n : Nat) : Json := int n

def nats (ns : List Nat) : Json := list (ns.map nat)

def texts (ss : List String) : Json := list (ss.map text)

/-- A member that is left out when it is empty. -/
def unlessEmpty (key : String) (empty : Bool) (value : Json) : List (String × Json) :=
  if empty then [] else [(key, value)]

/-! ## Text -/

def escapeChar (c : Char) : String :=
  match c.toNat with
  | 0x22 => "\\\""
  | 0x5C => "\\\\"
  | 8 => "\\b"
  | 12 => "\\f"
  | 10 => "\\n"
  | 13 => "\\r"
  | 9 => "\\t"
  | n =>
    if n < 0x20 || n = 0x3C || n = 0x3E || n = 0x26 || n = 0x2028 || n = 0x2029 then "\\u" ++ hexPadded 4 n
    else String.singleton c

def quoted (s : String) : String := "\"" ++ String.join ((Utf8.scrub s).toList.map escapeChar) ++ "\""

mutual
def compact : Json → String
  | null => "null"
  | bool b => if b then "true" else "false"
  | int n => toString n
  | number digits => digits
  | text s => quoted s
  | list items => "[" ++ String.intercalate "," (compactAll items) ++ "]"
  | object members => "\x7b" ++ String.intercalate "," (compactMembers members) ++ "\x7d"

def compactAll : List Json → List String
  | [] => []
  | j :: rest => compact j :: compactAll rest

def compactMembers : List (String × Json) → List String
  | [] => []
  | (k, v) :: rest => (quoted k ++ ":" ++ compact v) :: compactMembers rest
end

def lineBreak (level : Nat) : String := "\n" ++ String.ofList (List.replicate (2 * level) ' ')

/-- Items of a list or object, each on its own line. -/
def surround (level : Nat) (first last : String) (items : List String) : String :=
  if items.isEmpty then first ++ last
  else
    let inner := lineBreak (level + 1)
    first ++ inner ++ String.intercalate ("," ++ inner) items ++ lineBreak level ++ last

mutual
def indentedAt (level : Nat) : Json → String
  | list items => surround level "[" "]" (indentedAll (level + 1) items)
  | object members => surround level "\x7b" "\x7d" (indentedMembers (level + 1) members)
  | null => "null"
  | bool b => if b then "true" else "false"
  | int n => toString n
  | number digits => digits
  | text s => quoted s

def indentedAll (level : Nat) : List Json → List String
  | [] => []
  | j :: rest => indentedAt level j :: indentedAll level rest

def indentedMembers (level : Nat) : List (String × Json) → List String
  | [] => []
  | (k, v) :: rest => (quoted k ++ ": " ++ indentedAt level v) :: indentedMembers level rest
end

def indented (j : Json) : String := indentedAt 0 j

end Json

end TreeCompiler
