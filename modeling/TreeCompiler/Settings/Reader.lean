import TreeCompiler.Disk
import TreeCompiler.Settings.Basic
import TreeCompiler.Toml.Document

/-!
# Reading settings

A configuration file has a table for each group of settings. Names are matched whatever the case of their letters; a
value of the wrong kind makes the file unreadable, and keys without a meaning are reported together.

* `Settings.ofToml` : the settings of a document;
* `Settings.load` : the validated settings of a file;
* `Settings.discover` : those of the nearest file at or above a directory, or the default ones.
-/

namespace TreeCompiler

/-- A setting of a group: its name and how a value is taken over. -/
structure SettingField (α : Type) where
  name : String
  set : Toml → α → Option α

namespace SettingField

variable {α : Type}

def int (name : String) (put : Int → α → α) : SettingField α :=
  ⟨name, fun v s => match v with
    | .int n => some (put n s)
    | _ => none⟩

def text (name : String) (put : String → α → α) : SettingField α :=
  ⟨name, fun v s => match v with
    | .text t => some (put t s)
    | _ => none⟩

def bool (name : String) (put : Bool → α → α) : SettingField α :=
  ⟨name, fun v s => match v with
    | .bool b => some (put b s)
    | _ => none⟩

/-- Letters by which names are compared. Two letters outside the basic alphabet fold into it. -/
def foldChar (c : Char) : Char :=
  if c.toNat = 0x17F then 's' else if c.toNat = 0x212A then 'k' else c.toLower

def sameName (a b : String) : Bool := a.toList.map foldChar = b.toList.map foldChar

def find? (fields : List (SettingField α)) (name : String) : Option (SettingField α) :=
  fields.find? fun f => sameName f.name name

/-- Takes over the entries of a table that have a meaning. -/
def readTable (fields : List (SettingField α)) (s : α) : Toml → Option α
  | .table entries => entries.foldlM (fun s (name, v) =>
      match find? fields name with
      | some f => f.set v s
      | none => some s) s
  | _ => none

end SettingField

open SettingField

def CompileSettings.fields : List (SettingField CompileSettings) :=
  [int "max_diagnostics" fun n s => { s with maxDiagnostics := n },
   int "t_registers" fun n s => { s with valueRegisters := n },
   int "r_registers" fun n s => { s with refRegisters := n },
   int "max_try_depth" fun n s => { s with maxTryDepth := n },
   int "jobs" fun n s => { s with jobs := n },
   int "max_resolve_sweeps" fun n s => { s with maxSweeps := n }]

def DiagnosticSettings.fields : List (SettingField DiagnosticSettings) :=
  [text "format" fun t s => { s with format := t },
   text "path_mode" fun t s => { s with pathStyle := t },
   int "context" fun n s => { s with context := n },
   bool "notes" fun b s => { s with notes := b }]

def TraceSettings.fields : List (SettingField TraceSettings) :=
  [text "level" fun t s => { s with level := t },
   text "output" fun t s => { s with output := t },
   text "mode" fun t s => { s with mode := t }]

def CacheSettings.fields : List (SettingField CacheSettings) :=
  [bool "enabled" fun b s => { s with enabled := b },
   text "dir" fun t s => { s with dir := t }]

/-- The symbols of one library. A handle is a number without sign; what is no table names the library alone. -/
def readSymbols : Toml → Option (Option (List (String × Nat)))
  | .table entries => do
    return some (← entries.mapM fun (sym, v) =>
      match v with
      | .int n => some (sym, (n % (Nat.pow 2 64 : Nat)).toNat)
      | _ => none)
  | _ => some none

/-- The libraries of a table, over those known so far. What is no table changes nothing. -/
def readExterns (known : Option ExternTables) : Toml → Option (Option ExternTables)
  | .table entries => do
    return some (← entries.foldlM (fun tables (lib, v) => do
      return Registry.setPair lib (← readSymbols v) tables) (known.getD []))
  | _ => some known

def Settings.fields : List (SettingField Settings) :=
  [⟨"compile", fun v s => do return { s with compile := ← readTable CompileSettings.fields s.compile v }⟩,
   ⟨"diagnostics", fun v s => do return { s with diagnostics := ← readTable DiagnosticSettings.fields s.diagnostics v }⟩,
   ⟨"trace", fun v s => do return { s with trace := ← readTable TraceSettings.fields s.trace v }⟩,
   ⟨"cache", fun v s => do return { s with cache := ← readTable CacheSettings.fields s.cache v }⟩,
   ⟨"externs", fun v s => do return { s with externs := ← readExterns s.externs v }⟩]

/-- The names of a group that have a meaning; none for a group in which every name has one. -/
def Settings.groupNames : List (String × List String) :=
  [("compile", CompileSettings.fields.map (·.name)), ("diagnostics", DiagnosticSettings.fields.map (·.name)),
   ("trace", TraceSettings.fields.map (·.name)), ("cache", CacheSettings.fields.map (·.name))]

namespace Settings

/-- Whether a key of a document has a meaning. -/
def isKnown (doc : TomlDocument) : TomlKey → Bool
  | [group] => (find? fields group).isSome
  | [group, name] =>
    match groupNames.find? fun g => sameName g.1 group with
    | some g => g.2.any (sameName · name)
    | none => sameName "externs" group && (doc.table.lookup group matches some (.table _))
  | [group, lib, _] =>
    sameName "externs" group &&
      match doc.table.lookup group with
      | some (.table libs) => (libs.lookup lib matches some (.table _))
      | _ => false
  | _ => false

def ofToml (doc : TomlDocument) : Except SettingsError Settings :=
  match readTable fields {} (.table doc.table) with
  | none => .error .unreadable
  | some s =>
    match doc.keys.filter (!isKnown doc ·) with
    | [] => .ok s
    | keys => .error (.unknownKeys (keys.map TomlKey.render))

/-- The name of configuration files. -/
def fileName : String := "loom.toml"

/-- Why no settings could be had: those of a file are wrong, or a place could not be looked at. -/
inductive LoadFailure
  | file (path : String) (e : SettingsError)
  | place (path : String) (e : FileError)
deriving DecidableEq, Repr, Inhabited

namespace LoadFailure

def message : LoadFailure → String
  | file path e => path ++ ": " ++ e.message
  | place path e => "failed to stat " ++ quote path ++ ": " ++ e.message

end LoadFailure

def load (d : Disk) (path : String) : Except LoadFailure Settings :=
  let read : Except SettingsError Settings := do
    let bytes ← (d.read path).mapError fun _ => .unreadable
    let some doc := TomlDocument.parse? bytes | throw .unreadable
    let s ← ofToml doc
    s.validate
    return { s with path }
  read.mapError (.file path)

/-- The nearest configuration file at or above a directory. Every level shortens the path. -/
def findFrom (d : Disk) : Nat → String → Except LoadFailure (Option String)
  | 0, _ => .ok none
  | fuel + 1, dir =>
    let candidate := Path.join [dir, fileName]
    match d.stat candidate with
    | .ok _ => .ok (some candidate)
    | .error e =>
      if e.cause ≠ .notFound then .error (.place candidate e)
      else if Path.dir dir = dir then .ok none
      else findFrom d fuel (Path.dir dir)

def find (d : Disk) (start : String) : Except LoadFailure (Option String) :=
  let dir := Path.absolute d.workDir (if start = "" then "." else start)
  findFrom d (dir.length + 1) dir

def discover (d : Disk) (start : String) : Except LoadFailure Settings := do
  match ← find d start with
  | some path => load d path
  | none => return {}

end Settings

end TreeCompiler
