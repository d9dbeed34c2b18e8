import TreeCompiler.Diagnostic.Bag
import TreeCompiler.Text.Lowercase

/-!
# How places are written

* `PathStyle` : which form of a path is shown;
* `PathView` : a style together with the directories it refers to;
* `FileTable.place` : the text that stands for a span.
-/

namespace TreeCompiler

inductive PathStyle
  | auto
  | absolute
  | relative
  | basename
deriving DecidableEq, Repr, Inhabited

namespace PathStyle

/-- Reads a style whatever the case of its letters; the empty word is `auto`. -/
def parse? (s : String) : Option PathStyle :=
  match lower s with
  | "" | "auto" => some auto
  | "absolute" | "abs" => some absolute
  | "relative" | "rel" => some relative
  | "basename" | "base" => some basename
  | _ => none

end PathStyle

/-- `root` is what relative paths are measured from, the working directory when it is empty. -/
structure PathView where
  style : PathStyle := .auto
  root : String := ""
  workDir : String := "/"
deriving Repr, Inhabited

namespace PathView

/-- Absolute paths longer than this many bytes are shown by their last segment in the `auto` style. -/
def autoLimit : Nat := 40

def render (v : PathView) (path : String) : String :=
  match v.style with
  | .absolute => Path.absolute v.workDir path
  | .relative =>
    let root := Path.absolute v.workDir (if v.root = "" then "." else v.root)
    (Path.relative? root (Path.absolute v.workDir path)).getD path
  | .basename => Path.base path
  | .auto => if Path.isAbs path && autoLimit < (Utf8.encode path).length then Path.base path else path

end PathView

/-- File, line and column of the start of a span; the byte offset where the file has no text to count lines in. -/
def FileTable.place (t : FileTable) (v : PathView) (s : Span) : String :=
  match t.get? s.file with
  | none => "<unknown>"
  | some f =>
    let pos := (t.resolve s).1
    if pos.line = 0 then v.render f.path ++ ":@" ++ toString s.start
    else v.render f.path ++ ":" ++ toString pos.line ++ ":" ++ toString pos.col

end TreeCompiler
