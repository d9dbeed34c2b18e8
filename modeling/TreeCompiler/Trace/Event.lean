import TreeCompiler.Text.Json
import TreeCompiler.Text.Lowercase

/-!
# Trace events

* `TraceLevel` : how much is recorded; each level admits the scopes of the one below it and one finer kind;
* `TraceKind`, `TraceScope` : boundary or instant, and granularity, both with their numbers;
* `TraceEvent` : one record, with a line of text and a JSON form.
-/

namespace TreeCompiler

inductive TraceLevel
  | off
  | error
  | phase
  | detail
  | debug
  | other (code : Nat)
deriving DecidableEq, Repr, Inhabited

namespace TraceLevel

def all : List (TraceLevel × String) :=
  [(off, "off"), (error, "error"), (phase, "phase"), (detail, "detail"), (debug, "debug")]

def name (l : TraceLevel) : String := (all.lookup l).getD "unknown"

/-- Reads a level; the empty word is `off`. The error carries the word as it was compared. -/
def parse (s : String) : Except String TraceLevel :=
  let w := settingWord s
  if w = "" then .ok off
  else match all.find? (fun row => row.2 == w) with
    | some row => .ok row.1
    | none => .error ("invalid trace level: " ++ quote w ++ " (expected: off|error|phase|detail|debug)")

/-- The number of the finest scope that is recorded; a level without a name records nothing. -/
def finest : TraceLevel → Nat
  | off | other _ => 0
  | error => 1
  | phase => 2
  | detail => 4
  | debug => 5

/-- Whether events of a scope are recorded. -/
def admits (l : TraceLevel) (scope : Nat) : Bool := scope ≠ 0 && scope ≤ l.finest

end TraceLevel

inductive TraceKind
  | begin
  | finish
  | point
  | other (code : Nat)
deriving DecidableEq, Repr, Inhabited

namespace TraceKind

def ofNumber : Nat → TraceKind
  | 1 => begin
  | 2 => finish
  | 3 => point
  | n => other n

def name : TraceKind → String
  | begin => "begin"
  | finish => "end"
  | point => "point"
  | other _ => "unknown"

def mark : TraceKind → String
  | begin => "> "
  | finish => "< "
  | point => "* "
  | other _ => ""

end TraceKind

namespace TraceScope

def driver : Nat := 1
def pass : Nat := 2
def unit : Nat := 3
def function : Nat := 4
def node : Nat := 5

def name : Nat → String
  | 1 => "driver"
  | 2 => "pass"
  | 3 => "unit"
  | 4 => "function"
  | 5 => "node"
  | _ => "unknown"

end TraceScope

structure TraceEvent where
  seq : Nat := 0
  kind : TraceKind
  scope : Nat
  span : Nat := 0
  parent : Nat := 0
  name : String := ""
  detail : String := ""
  extra : List (String × String) := []
  timeMicros : Int := 0
  elapsedNanos : Int := 0
deriving Repr, Inhabited

/-- Replaces the value of a key or adds the pair at the end. -/
def putPair (pairs : List (String × String)) (key value : String) : List (String × String) :=
  if pairs.any (fun p => p.1 == key) then pairs.map fun p => if p.1 == key then (key, value) else p
  else pairs ++ [(key, value)]

def sortPairs (pairs : List (String × String)) : List (String × String) := pairs.mergeSort fun a b => textLe a.1 b.1

/-! ## Durations -/

/-- A duration in its largest unit below a second, or in hours, minutes and seconds. -/
def durationText (nanos : Int) : String :=
  let n := nanos.natAbs
  let body :=
    if n = 0 then "0s"
    else if n < 1000 then toString n ++ "ns"
    else if n < 1000000 then fraction n 3 ++ "µs"
    else if n < 1000000000 then fraction n 6 ++ "ms"
    else
      let minutes := n / 60000000000
      let seconds := fraction (n % 60000000000) 9 ++ "s"
      if minutes = 0 then seconds
      else if minutes < 60 then toString minutes ++ "m" ++ seconds
      else toString (minutes / 60) ++ "h" ++ toString (minutes % 60) ++ "m" ++ seconds
  if nanos < 0 then "-" ++ body else body

/-! ## Calendar time -/

/-- Year, month and day of a number of days after 1970-01-01. -/
def civilDate (days : Int) : Int × Nat × Nat :=
  let z := days + 719468
  let era := z.fdiv 146097
  let doe := (z - era * 146097).toNat
  let yoe := (doe - doe / 1460 + doe / 36524 - doe / 146096) / 365
  let doy := doe - (365 * yoe + yoe / 4 - yoe / 100)
  let mp := (5 * doy + 2) / 153
  let day := doy - (153 * mp + 2) / 5 + 1
  let month := if mp < 10 then mp + 3 else mp - 9
  ((yoe : Int) + era * 400 + (if month ≤ 2 then 1 else 0), month, day)

def zeroPadded (width n : Nat) : String :=
  let s := toString n
  String.ofList (List.replicate (width - s.length) '0') ++ s

/-- The moment `micros` microseconds after 1970, to the microsecond. -/
def timeText (micros : Int) : String :=
  let secs := micros.fdiv 1000000
  let frac := (micros - secs * 1000000).toNat
  let days := secs.fdiv 86400
  let rest := (secs - days * 86400).toNat
  let (y, m, d) := civilDate days
  let year := if y < 0 then "-" ++ zeroPadded 4 y.natAbs else zeroPadded 4 y.natAbs
  year ++ "-" ++ zeroPadded 2 m ++ "-" ++ zeroPadded 2 d ++ "T" ++ zeroPadded 2 (rest / 3600) ++ ":" ++
    zeroPadded 2 (rest / 60 % 60) ++ ":" ++ zeroPadded 2 (rest % 60) ++ "." ++ zeroPadded 6 frac ++ "Z"

namespace TraceEvent

/-- Scope, mark, name, detail and pairs of an event; children of another span are indented. -/
def body (ev : TraceEvent) : String :=
  padRight 8 (TraceScope.name ev.scope) ++ " " ++ (if ev.parent ≠ 0 then "  " else "") ++ ev.kind.mark ++ ev.name ++
    (if ev.detail = "" then "" else " (" ++ ev.detail ++ ")") ++
    (if ev.kind = .finish && 0 < ev.elapsedNanos then " " ++ durationText ev.elapsedNanos else "") ++
    (if ev.extra.isEmpty then ""
     else " \x7b" ++ String.intercalate ", " ((sortPairs ev.extra).map fun p => p.1 ++ "=" ++ p.2) ++ "\x7d") ++ "\n"

def line (ev : TraceEvent) : String := "[" ++ padLeft 6 (toString ev.seq) ++ "] " ++ ev.body

def json (ev : TraceEvent) : Json :=
  let micros := ev.elapsedNanos.tdiv 1000
  .object ([("time", Json.text (timeText ev.timeMicros)), ("seq", Json.int ev.seq), ("kind", Json.text ev.kind.name),
      ("scope", Json.text (TraceScope.name ev.scope)), ("span_id", Json.int ev.span)] ++
    (if ev.parent = 0 then [] else [("parent_id", Json.int ev.parent)]) ++ [("name", Json.text ev.name)] ++
    (if ev.detail = "" then [] else [("detail", Json.text ev.detail)]) ++
    (if micros = 0 then [] else [("elapsed_us", Json.int micros)]) ++
    (if ev.extra.isEmpty then []
     else [("extra", Json.object ((sortPairs ev.extra).map fun p => (p.1, Json.text p.2)))]))

end TraceEvent

end TreeCompiler
