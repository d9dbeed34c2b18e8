import TreeCompiler.Diagnostic.Location
import TreeCompiler.Text.Width

/-!
# Diagnostics for a terminal

Each finding is a headline, the lines it stands on with the place underlined, and its notes.

* `Style`, `paint` : terminal colours;
* `Measure` : the cells of characters and of texts;
* `expandTabs` : tabs turned into blanks up to the next stop;
* `FileTable.snippet` : the quoted lines and the underline;
* `Bag.pretty` : the whole listing; `Bag.summary` : one line with the counts.
-/

namespace TreeCompiler

structure Style where
  start : String
  stop : String

namespace Style

def faint : Style := ⟨"2", "22"⟩
def bold : Style := ⟨"1", "22"⟩
def blue : Style := ⟨"34", "0"⟩
def cyan : Style := ⟨"36", "0"⟩
def boldRed : Style := ⟨"31;1", "0;22"⟩
def boldGreen : Style := ⟨"32;1", "0;22"⟩
def boldYellow : Style := ⟨"33;1", "0;22"⟩
def boldBlue : Style := ⟨"34;1", "0;22"⟩
def boldCyan : Style := ⟨"36;1", "0;22"⟩

def paint (st : Style) (colored : Bool) (s : String) : String :=
  if colored then "\x1b[" ++ st.start ++ "m" ++ s ++ "\x1b[" ++ st.stop ++ "m" else s

end Style

def Severity.style : Severity → Style
  | .error => .boldRed
  | .warning => .boldYellow
  | .info => .boldCyan
  | .other _ => .bold

/-- The cells that a character takes, and a text. -/
structure Measure where
  cells : Char → Nat := Width.cells
  width : Bytes → Nat := Width.width
deriving Inhabited

structure PrettyOptions where
  color : Bool := false
  /-- Lines shown above the one the finding starts on; with a negative number no line is shown. -/
  context : Int := 0
  paths : PathView := {}
  /-- Cells of a quoted line; 0 sets no bound. -/
  width : Nat := 0
  notes : Bool := false
  measure : Measure := {}
deriving Inhabited

def blanks (n : Nat) : String := String.ofList (List.replicate n ' ')

def tabStop : Nat := 4

namespace Measure

/-- Characters with their tabs replaced, `col` cells from the start of the line. -/
def expandTabsFrom (m : Measure) (col : Nat) : List Char → List Char
  | [] => []
  | c :: rest =>
    if c = '\t' then
      let n := tabStop - col % tabStop
      List.replicate n ' ' ++ m.expandTabsFrom (col + n) rest
    else c :: m.expandTabsFrom (col + m.cells c) rest

/-- A text without tabs stays as it is, ill-formed octets included. -/
def expandTabs (m : Measure) (bs : Bytes) : Bytes :=
  if bs.contains 9 then (m.expandTabsFrom 0 (Utf8.orReplacement (Utf8.chars bs))).flatMap String.utf8EncodeChar else bs

/-- The cells that a part of a line takes, from the start of a line. -/
def shownWidth (m : Measure) (part : Bytes) : Nat := m.width (m.expandTabs part)

end Measure

/-- The byte index of a 1-based column, kept within the line. -/
def columnIndex (line : Bytes) (col : Nat) : Nat := min (col - 1) line.length

def quotedLine (f : File) (o : PrettyOptions) (digits n : Nat) : String :=
  let line := o.measure.expandTabs (f.line n)
  let text := Utf8.decode (if 0 < o.width then Width.truncate line o.width "…" else line)
  " " ++ Style.blue.paint o.color (padLeft digits (toString n)) ++ " " ++ Style.blue.paint o.color "|" ++ " " ++ text ++
    "\n"

/-- The line under the quoted ones that marks a span; nothing when it would start beyond the shown width. -/
def underline (f : File) (o : PrettyOptions) (digits : Nat) (start stop : LineCol) : String :=
  let line := f.line start.line
  let lo := columnIndex line start.col
  let hi := if stop.line = start.line then columnIndex line stop.col else line.length
  let lead := o.measure.shownWidth (line.take lo)
  let span := max 1 (o.measure.shownWidth ((line.take (max lo hi)).drop lo))
  if 0 < o.width && o.width ≤ lead then ""
  else
    " " ++ blanks digits ++ " " ++ Style.blue.paint o.color "|" ++ " " ++ blanks lead ++
      Style.boldRed.paint o.color ("^" ++ String.ofList (List.replicate (span - 1) '~')) ++ "\n"

def FileTable.snippet (t : FileTable) (o : PrettyOptions) (s : Span) : String :=
  match t.get? s.file with
  | none => ""
  | some f =>
    if f.content.isNone then ""
    else
      let (start, stop) := t.resolve s
      let digits := (toString start.line).length
      let first := (max 1 ((start.line : Int) - o.context)).toNat
      let lines := (List.range (start.line + 1 - first)).map (first + ·)
      String.join (lines.map (quotedLine f o digits)) ++ underline f o digits start stop

def Diagnostic.pretty (d : Diagnostic) (t : FileTable) (o : PrettyOptions) : String :=
  let head := Style.faint.paint o.color (t.place o.paths d.span) ++ ": " ++
    d.severity.style.paint o.color d.severity.name ++ " " ++ Style.bold.paint o.color d.code.id ++ ": " ++ d.message ++
    "\n"
  let notes := if o.notes then d.notes.map fun n =>
    "  " ++ Style.cyan.paint o.color "note:" ++ " " ++ t.place o.paths n.span ++ ": " ++ n.text ++ "\n" else []
  head ++ t.snippet o d.span ++ String.join notes

/-- Every kept finding, divided by blank lines, and how many more there were. -/
def Bag.pretty (b : Bag) (t : FileTable) (o : PrettyOptions) : String :=
  String.intercalate "\n" (b.items.map fun d => d.pretty t o) ++
    (if 0 < b.dropped then "\n... " ++ toString b.dropped ++ " more diagnostics not shown\n" else "")

def plural (n : Nat) (word : String) : String := if n = 1 then "1 " ++ word else toString n ++ " " ++ word ++ "s"

def Bag.summary (b : Bag) (name : String) : String :=
  name ++ ": " ++ plural b.errors "error" ++ ", " ++ plural b.warnings "warning" ++ "\n"

end TreeCompiler
