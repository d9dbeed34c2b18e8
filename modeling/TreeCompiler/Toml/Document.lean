import TreeCompiler.Toml.Statement

/-!
# TOML documents

`TomlDocument` is what a document says: its table and the keys in the order in which they were given.

* `TomlDraft` : a document under construction. A table that exists only because a longer key went through it is
  implicit and may be given later, once;
* `TomlDocument.parse?` : reads the bytes of a document.
-/

namespace TreeCompiler

structure TomlDocument where
  table : TomlTable := []
  keys : List TomlKey := []
deriving Inhabited

structure TomlDraft where
  table : TomlTable := []
  /-- Keys as given, newest first. -/
  keys : List TomlKey := []
  /-- Tables that no header or assignment has given yet. -/
  implicit : List TomlKey := []
  /-- Keys whose latest value is an array. -/
  arrays : List TomlKey := []
deriving Inhabited

namespace TomlDraft

def addImplicit (d : TomlDraft) (key : TomlKey) : TomlDraft := { d with implicit := key :: d.implicit }

def removeImplicit (d : TomlDraft) (key : TomlKey) : TomlDraft := { d with implicit := d.implicit.filter (· ≠ key) }

def addKey (d : TomlDraft) (key : TomlKey) : TomlDraft := { d with keys := key :: d.keys }

/-- Notes whether the value of a key is an array. -/
def note (d : TomlDraft) (key : TomlKey) (isArray : Bool) : TomlDraft :=
  let others := d.arrays.filter (· ≠ key)
  { d with arrays := if isArray then key :: others else others }

/-- The key under which the kind of a value is noted. A value with an empty name is noted as that of its table. -/
def notedKey (path : TomlKey) (name : String) : TomlKey := if name = "" && path ≠ [] then path else path ++ [name]

/-- Gives a name of the table at `path` its value. A name that is taken keeps what it has if that is an implicit table,
and is given anew if it is an array; anything else is refused. -/
def define (d : TomlDraft) (path : TomlKey) (name : String) (value : Toml) : Option TomlDraft := do
  let taken ← d.table.holds? name path
  let key := path ++ [name]
  if !taken || d.arrays.contains key then
    let table ← d.table.modifyAt (fun entries => some (entries.put name value)) path
    let d := if taken then d.removeImplicit key else d
    return { d with table }
  else if d.implicit.contains key then return d.removeImplicit key
  else none

/-- Creates a table that a longer key goes through. -/
def passThrough (d : TomlDraft) (key : TomlKey) : Option TomlDraft := do
  let path := key.dropLast
  let name := key.getLastD ""
  if ← d.table.holds? name path then return d
  let table ← d.table.modifyAt (fun entries => some (entries.put name (.table []))) path
  return { d.addImplicit key with table }

/-- The proper beginnings of a key, shortest first. -/
def beginnings (key : TomlKey) : List TomlKey := (List.range (key.length - 1)).map fun n => key.take (n + 1)

/-- Opens the table of a key, as a new row of an array of tables when `row` is set. -/
def enter (d : TomlDraft) (key : TomlKey) (row : Bool) : Option TomlDraft := do
  let d ← (beginnings key).foldlM passThrough d
  let path := key.dropLast
  let name := key.getLastD ""
  if row then
    return { d with table := ← d.table.modifyAt (TomlTable.addRow name) path }
  else d.define path name (.table [])

/-- Opens the tables between `path` and the last name of a key, which become implicit. -/
def enterAll (d : TomlDraft) (path : TomlKey) : TomlKey → Option (TomlKey × TomlDraft)
  | [] => some (path, d)
  | name :: rest => do
    let key := path ++ [name]
    enterAll (← (d.addImplicit key).enter key false) key rest

mutual
/-- The value of an expression that stands at `path` and `name`. An inline table is built in place. -/
def evaluate (d : TomlDraft) (path : TomlKey) (name : String) (inArray : Bool) : TomlExpr → Option (Toml × TomlDraft)
  | .scalar v => some (v, d)
  | .array items => do
    let (values, d) ← evaluateAll (d.note (notedKey path name) true) path name items
    return (.array values, d)
  | .inline entries => do
    let key := path ++ [name]
    let (rows, d) ← assignAll (← (d.addImplicit key).enter key inArray) key entries
    return (.table rows, d)

def evaluateAll (d : TomlDraft) (path : TomlKey) (name : String) : List TomlExpr → Option (List Toml × TomlDraft)
  | [] => some ([], d)
  | item :: rest => do
    let (v, d) ← evaluate d path name true item
    let (vs, d) ← evaluateAll d path name rest
    return (v :: vs, d)

def assignAll (d : TomlDraft) (path : TomlKey) : List (TomlKey × TomlExpr) → Option (TomlTable × TomlDraft)
  | [] => some ([], d)
  | (key, e) :: rest => do
    let (inner, d) ← d.enterAll path key.dropLast
    let name := key.getLastD ""
    let (v, d) ← evaluate (d.addKey (inner ++ [name])) inner name false e
    let d ← d.define inner name v
    let (rows, d) ← assignAll (d.note (notedKey inner name) (v matches .array _)) path rest
    return ((name, v) :: rows, d)
end

/-- Carries out a statement within the table at `path`, and gives the path for the next one. -/
def run (d : TomlDraft) (path : TomlKey) : TomlStatement → Option (TomlKey × TomlDraft)
  | .table key => do return (key, ((← d.enter key false).note key false).addKey key)
  | .tables key => do return (key, ((← d.enter key true).note key false).addKey key)
  | .assign key e => do return (path, (← assignAll d path [(key, e)]).2)

end TomlDraft

namespace TomlDocument

/-- Characters that may stand in a document: no control characters but tabs and line breaks, and not the one that
stands for broken octets. -/
def isAllowed : List Char → Bool
  | [] => true
  | '\r' :: '\n' :: r => isAllowed r
  | c :: r =>
    (c = '\t' || c = '\n' || (0x20 ≤ c.toNat && c.toNat ≠ 0x7F && c ≠ Utf8.replacement)) && isAllowed r

/-- Drops a mark of the byte order. -/
def withoutMark : Bytes → Bytes
  | 0xFF :: 0xFE :: r | 0xFE :: 0xFF :: r => r
  | 0xEF :: 0xBB :: 0xBF :: r => r
  | bs => bs

def parse? (bs : Bytes) : Option TomlDocument := do
  let cs ← (Utf8.chars (withoutMark bs)).mapM id
  if !isAllowed cs then none
  let statements ← TomlStatement.parseAll? cs
  let (_, d) ← statements.foldlM (fun (path, d) s => TomlDraft.run d path s) (([] : TomlKey), ({} : TomlDraft))
  return { table := d.table, keys := d.keys.reverse }

end TomlDocument

end TreeCompiler
