import TreeCompiler.Source.File
import TreeCompiler.Text.Json

/-!
# Spans and files as documents

A span is written as its three numbers, a file as its path and, if it has one, its text.
-/

namespace TreeCompiler

/-- Numbers that are missing are 0. -/
def Span.ofJson (j : Json) : Span :=
  let part (i : Nat) : Nat := (j.asList.getD i .null).asWord 32
  { file := part 0, start := part 1, stop := part 2 }

def Span.toJson (s : Span) : Json := .nats [s.file, s.start, s.stop]

/-- Files with their paths and texts; a file without text has none. -/
def FileTable.ofJson (j : Json) (inMemory : Bool) : FileTable :=
  j.asList.foldl (fun fs f =>
    let content := match f.field "content" with
      | .text s => some (Utf8.encode s)
      | _ => none
    fs.add (f.field "path").asText content inMemory) {}

end TreeCompiler
