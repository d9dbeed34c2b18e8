import TreeCompiler.Build.Artifact
import TreeCompiler.Build.Digest
import TreeCompiler.Diagnostic.Bag
import TreeCompiler.Disk

/-!
# Cache of compiled units

A `CacheEntry` is what compiling a unit gave: its program and the findings that did not stop it. Entries are files of a
directory, named by the digest of what they were compiled from.

* `CacheEntry.encode`, `CacheEntry.decode?` : the wire form. An entry of another version, or without a program, is none;
* `Cache.find`, `Cache.store`, `Cache.clear` : the directory.
-/

namespace TreeCompiler

structure CacheEntry where
  unit : String := ""
  program : Program
  debug : Option DebugTable := none
  diagnostics : List Diagnostic := []
deriving Inhabited

def Note.toWire (n : Note) : Wire := .record [("Span", n.span.toWire), ("Msg", .ofText n.text)]

/-- A note without anything in it. -/
def Note.blank : Note := { span := {}, text := "" }

def Note.over? : Note → Wire → Option Note :=
  Wire.overRecord? ["Span", "Msg"] Note.blank fun name w n =>
    match name with
    | "Span" => do return { n with span := ← n.span.over? w }
    | "Msg" => do return { n with text := ← w.toText? }
    | _ => some n

def Diagnostic.toWire (d : Diagnostic) : Wire :=
  .record ([("s", .ofNat d.severity.rank), ("c", .ofNat d.code.number), ("m", .ofText d.message), ("p", d.span.toWire)] ++
    Wire.unlessEmpty "n" d.notes.isEmpty (.array (d.notes.map Note.toWire)))

/-- A finding without anything in it. -/
def Diagnostic.blank : Diagnostic := { severity := .info, code := .ofNumber 0, message := "", span := {} }

def Diagnostic.over? : Diagnostic → Wire → Option Diagnostic :=
  Wire.overRecord? ["s", "c", "m", "p", "n"] Diagnostic.blank fun name w d =>
    match name with
    | "s" => do return { d with severity := .ofRank (← w.toNat? 8) }
    | "c" => do return { d with code := .ofNumber (← w.toNat? 16) }
    | "m" => do return { d with message := ← w.toText? }
    | "p" => do return { d with span := ← d.span.over? w }
    | "n" => do return { d with notes := (← Wire.Slots.over? Note.blank Note.over? ⟨d.notes, []⟩ w).rows }
    | _ => some d

namespace CacheEntry

def toWire (e : CacheEntry) : Wire :=
  .record [("Schema", .ofNat cacheSchema), ("Unit", .ofText e.unit), ("Program", e.program.toWire),
    ("Debug", (e.debug.map (·.toWire)).getD .nil), ("Diagnostics", .orNil .array (e.diagnostics.map Diagnostic.toWire))]

def encode (e : CacheEntry) : Bytes := e.toWire.encode

/-- An entry as it is read, before anything is known of its version. -/
structure Draft where
  schema : Nat := 0
  unit : String := ""
  program : Option Program.Draft := none
  debug : Option DebugTable.Draft := none
  diagnostics : Wire.Slots Diagnostic := {}

def Draft.ofWire? : Wire → Option Draft :=
  Wire.overRecord? ["Schema", "Unit", "Program", "Debug", "Diagnostics"] {} (fun name w r =>
    match name with
    | "Schema" => do return { r with schema := ← w.toNat? 16 }
    | "Unit" => do return { r with unit := ← w.toText? }
    | "Program" => do return { r with program := ← Wire.overOptional? {} Program.Draft.over? r.program w }
    | "Debug" => do return { r with debug := ← Wire.overOptional? {} DebugTable.Draft.over? r.debug w }
    | "Diagnostics" => do
      return { r with diagnostics := ← r.diagnostics.over? Diagnostic.blank Diagnostic.over? w }
    | _ => some r) {}

/-- None for bytes that are no entry at all; nothing inside for an entry that cannot be used. -/
def decode? (bs : Bytes) : Option (Option CacheEntry) := do
  let (w, _) ← Wire.decode? bs
  let r ← Draft.ofWire? w
  if r.schema ≠ cacheSchema then return none
  return r.program.map fun program =>
    { unit := r.unit, program := program.program, debug := r.debug.map (·.table), diagnostics := r.diagnostics.rows }

end CacheEntry

/-- What the cache has for a unit. -/
inductive CacheLookup
  | hit (e : CacheEntry)
  | miss
  | unreadable (reason : String)
deriving Inhabited

namespace Cache

def unitsDir (dir : String) : String := Path.join [dir, "units"]

def entryPath (dir : String) (digest : Bytes) : String := Path.join [unitsDir dir, digest.toHex ++ ".mp"]

def find (d : Disk) (dir : String) (digest : Bytes) : CacheLookup :=
  match d.read (entryPath dir digest) with
  | .ok bytes =>
    match CacheEntry.decode? bytes with
    | some (some e) => .hit e
    | some none => .miss
    | none => .unreadable ("decode cache entry: " ++ if bytes.isEmpty then "EOF" else "malformed")
  | .error e =>
    if e.cause = .notFound then .miss
    else if e.cause = .isDirectory then .unreadable ("decode cache entry: " ++ e.message)
    else .unreadable e.message

def store (d : Disk) (dir : String) (digest : Bytes) (e : CacheEntry) : Except FileError Disk := do
  let d ← d.makeDirs (unitsDir dir)
  d.replace (entryPath dir digest) e.encode

def clear (d : Disk) (dir : String) : Disk := d.removeAll (unitsDir dir)

/-- Gives every entry other bytes. -/
def overwrite (d : Disk) (dir : String) (content : Bytes) : Disk :=
  (d.filesUnder (unitsDir dir)).foldl (fun d (name, _) =>
    if name.endsWith ".mp" && !name.toList.contains '/' then
      (d.write (Path.join [unitsDir dir, name]) content).toOption.getD d
    else d) d

end Cache

end TreeCompiler
