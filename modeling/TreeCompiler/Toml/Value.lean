import TreeCompiler.Text.Quoted

/-!
# TOML values

* `Toml` : a value. Reals and dates are kept as they were written;
* `TomlKey` : the names that lead to a value, outermost first. `TomlKey.render` quotes the names that need it;
* `TomlTable.modifyAt`, `TomlTable.holds?` : work at the table that a path leads to. A path passes through the newest
  row of an array of tables.
-/

namespace TreeCompiler

inductive Toml
  | text (s : String)
  | int (n : Int)
  | real (digits : String)
  | bool (b : Bool)
  | date (digits : String)
  | array (items : List Toml)
  | table (entries : List (String × Toml))
  | tables (newest : List (String × Toml)) (older : List (List (String × Toml)))
deriving Inhabited

abbrev TomlTable := List (String × Toml)

abbrev TomlKey := List String

/-- Letters, digits, `_` and `-`, of which names consist that need no quotes. -/
def isBareKeyChar (c : Char) : Bool := c.isAlphanum || c = '_' || c = '-'

namespace TomlKey

def escapeChar (c : Char) : String :=
  match c.toNat with
  | 0x22 => "\\\""
  | 0x5C => "\\\\"
  | 8 => "\\b"
  | 9 => "\\t"
  | 10 => "\\n"
  | 12 => "\\f"
  | 13 => "\\r"
  | n => if n < 0x20 || n = 0x7F then "\\u" ++ hexPadded 4 n else String.singleton c

def renderName (name : String) : String :=
  if name ≠ "" && name.toList.all isBareKeyChar then name
  else "\"" ++ String.join (name.toList.map escapeChar) ++ "\""

def render (key : TomlKey) : String := String.intercalate "." (key.map renderName)

end TomlKey

namespace TomlTable

def put (name : String) (value : Toml) : TomlTable → TomlTable
  | [] => [(name, value)]
  | (k, v) :: rest => if k == name then (name, value) :: rest else (k, v) :: put name value rest

/-- Changes the table at a path; none when the path leads through something that is no table. -/
def modifyAt (f : TomlTable → Option TomlTable) : TomlKey → TomlTable → Option TomlTable
  | [], entries => f entries
  | name :: path, entries =>
    match entries.lookup name with
    | some (.table inner) => do return put name (.table (← modifyAt f path inner)) entries
    | some (.tables newest older) => do return put name (.tables (← modifyAt f path newest) older) entries
    | _ => none

/-- Whether the table at a path has an entry of that name. -/
def holds? (name : String) : TomlKey → TomlTable → Option Bool
  | [], entries => some (entries.lookup name).isSome
  | next :: path, entries =>
    match entries.lookup next with
    | some (.table inner) => holds? name path inner
    | some (.tables newest _) => holds? name path newest
    | _ => none

/-- Adds a row to the array of tables of that name, which is created when it is missing. -/
def addRow (name : String) (entries : TomlTable) : Option TomlTable :=
  match entries.lookup name with
  | none => some (put name (.tables [] []) entries)
  | some (.tables newest older) => some (put name (.tables [] (newest :: older)) entries)
  | some _ => none

end TomlTable

end TreeCompiler
