import TreeCompiler.Diagnostic.Location
import TreeCompiler.Source.Document

/-!
# Diagnostics as a document

* `Bag.document` : the JSON form of a listing. Positions that are unknown, notes, the unit's name and the number of
  dropped findings are left out when there is nothing to say;
* `Diagnostic.row`, `Diagnostic.ofRow` : a short form of one finding, and a list of its parts.
-/

namespace TreeCompiler

structure DocumentOptions where
  positions : Bool := false
  paths : PathView := {}
  /-- How many findings are written; 0 sets no bound. -/
  limit : Nat := 0
  notes : Bool := false
deriving Inhabited

namespace Document

/-- A member that is written only when its number is not 0. -/
def optional (key : String) (n : Nat) : List (String × Json) := if n = 0 then [] else [(key, .int n)]

def location (t : FileTable) (o : DocumentOptions) (s : Span) : Json :=
  let path := match t.get? s.file with
    | some f => o.paths.render f.path
    | none => ""
  let (start, stop) := if o.positions then t.resolve s else ({}, {})
  .object ([("file", Json.text path), ("start_byte", Json.int s.start), ("end_byte", Json.int s.stop)] ++
    optional "start_line" start.line ++ optional "start_col" start.col ++
    optional "end_line" stop.line ++ optional "end_col" stop.col)

def note (t : FileTable) (o : DocumentOptions) (n : Note) : Json :=
  .object [("message", .text n.text), ("location", location t o n.span)]

def finding (t : FileTable) (o : DocumentOptions) (d : Diagnostic) : Json :=
  .object ([("severity", Json.text d.severity.name), ("code", Json.text d.code.id), ("title", Json.text d.code.title),
    ("message", Json.text d.message), ("location", location t o d.span)] ++
    (if o.notes && !d.notes.isEmpty then [("notes", Json.list (d.notes.map (note t o)))] else []))

end Document

def Bag.document (b : Bag) (unit : String) (t : FileTable) (o : DocumentOptions) : Json :=
  let items := if 0 < o.limit then b.items.take o.limit else b.items
  .object ((if unit = "" then [] else [("unit", Json.text unit)]) ++
    [("diagnostics", Json.list (items.map (Document.finding t o))), ("count", Json.int items.length)] ++
    Document.optional "dropped" b.dropped)

def Diagnostic.row (d : Diagnostic) : Json :=
  .object ([("sev", .text d.severity.name), ("code", .text d.code.id), ("msg", .text d.message),
    ("span", d.span.toJson)] ++
    Json.unlessEmpty "notes" d.notes.isEmpty (.list (d.notes.map fun n => .list [n.span.toJson, .text n.text])))

/-- A finding given by code, severity, span, message and notes. -/
def Diagnostic.ofRow (parts : List Json) : Diagnostic :=
  let part (i : Nat) : Json := parts.getD i .null
  { code := .ofNumber ((part 0).asWord 16), severity := .ofRank ((part 1).asWord 8), span := .ofJson (part 2)
    message := (part 3).asText
    notes := (part 4).asList.map fun n =>
      { span := .ofJson (n.asList.getD 0 .null), text := (n.asList.getD 1 .null).asText } }

end TreeCompiler
