import TreeCompiler.Text.Utf8
import TreeCompiler.Text.Path

/-!
# Source files, spans and positions

* `Span` : a half-open range of byte offsets in one file of a unit;
* `File` : a path, its content if the unit carries it, and the offsets of its line breaks;
* `FileTable` : the files of a unit, numbered from 0; `resolve` turns a span into line and column;
* `lineCol`, `File.line` : position of an offset, and the bytes of a line.
-/

namespace TreeCompiler

structure Span where
  file : Nat := 0
  start : Nat := 0
  stop : Nat := 0
deriving DecidableEq, Repr, Inhabited

namespace Span

def isEmpty (s : Span) : Bool := s.stop ≤ s.start

def render (s : Span) : String := toString s.file ++ ":" ++ toString s.start ++ "-" ++ toString s.stop

end Span

/-- A 1-based line and byte column; both are 0 where there is no text to count in. -/
structure LineCol where
  line : Nat := 0
  col : Nat := 0
deriving DecidableEq, Repr, Inhabited

structure File where
  path : String
  content : Option Bytes
  inMemory : Bool
  breaks : List Nat
deriving Inhabited

/-- Offsets of the line breaks, counted from `at`. -/
def lineBreaks (pos : Nat) : Bytes → List Nat
  | [] => []
  | b :: rest => if b = 10 then pos :: lineBreaks (pos + 1) rest else lineBreaks (pos + 1) rest

/-- The position of an offset: a line break belongs to the line it ends. Columns are 32-bit numbers. -/
def lineCol (breaks : List Nat) (off : Nat) : LineCol :=
  let before := breaks.takeWhile (· < off)
  let lineStart := match before.getLast? with
    | some b => b + 1
    | none => 0
  { line := before.length + 1, col := (off - lineStart + 1) % Nat.pow 2 32 }

namespace File

def ofContent (path : String) (content : Option Bytes) (inMemory : Bool) : File :=
  { path := Path.clean path, content, inMemory, breaks := lineBreaks 0 (content.getD []) }

def flags (f : File) : Nat := (if f.inMemory then 1 else 0) + (if f.content.isNone then 2 else 0)

/-- The bytes of a 1-based line without its line break. -/
def line (f : File) (n : Nat) : Bytes :=
  let text := f.content.getD []
  if n = 0 || f.breaks.length + 1 < n then []
  else
    let start := if n = 1 then 0 else match f.breaks[n - 2]? with
      | some b => b + 1
      | none => 0
    let stop := (f.breaks[n - 1]?).getD text.length
    (text.drop start).take (stop - start)

end File

structure FileTable where
  files : Array File := #[]
deriving Inhabited

namespace FileTable

def add (t : FileTable) (path : String) (content : Option Bytes) (inMemory : Bool) : FileTable :=
  { files := t.files.push (File.ofContent path content inMemory) }

def get? (t : FileTable) (id : Nat) : Option File := t.files[id]?

def size (t : FileTable) : Nat := t.files.size

/-- The file last added under a path. -/
def find? (t : FileTable) (path : String) : Option Nat :=
  let p := Path.clean path
  ((List.range t.files.size).reverse).find? fun i => (t.files[i]?.map (·.path)) = some p

def resolve (t : FileTable) (s : Span) : LineCol × LineCol :=
  match t.get? s.file with
  | none => ({}, {})
  | some f => if f.content.isNone then ({}, {}) else (lineCol f.breaks s.start, lineCol f.breaks s.stop)

end FileTable

end TreeCompiler
