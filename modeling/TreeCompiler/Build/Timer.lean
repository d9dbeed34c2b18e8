import TreeCompiler.Text.Json

/-!
# Timing of phases

A `Timer` collects phases of a build. Phases of one name are summed in a report, in the order in which the names came.

* `start`, `stop` : the bounds of a phase; the time taken is given by the caller;
* `report`, `slowest`, `summary` : the views of what was recorded.
-/

namespace TreeCompiler

structure Phase where
  name : String
  unit : String := ""
  nanos : Nat := 0
  note : String := ""
deriving DecidableEq, Repr, Inhabited

structure PhaseTotal where
  name : String
  count : Nat := 0
  nanos : Nat := 0
  note : String := ""
deriving DecidableEq, Repr, Inhabited

structure Timer where
  phases : Array Phase := #[]
deriving Inhabited

namespace Timer

/-- Begins a phase for a unit, or for the whole build when `unit` is empty, and gives its number. -/
def start (t : Timer) (name unit : String) : Nat × Timer := (t.phases.size, { phases := t.phases.push { name, unit } })

/-- Ends a phase; a number that was never given is ignored. -/
def stop (t : Timer) (index : Int) (note : String) (nanos : Nat) : Timer :=
  if index < 0 then t else { phases := t.phases.modify index.toNat fun p => { p with nanos, note } }

/-- Adds a phase to the totals. A later note replaces an earlier one. -/
def tally (totals : List PhaseTotal) (p : Phase) : List PhaseTotal :=
  let grow (t : PhaseTotal) : PhaseTotal :=
    { t with count := t.count + 1, nanos := t.nanos + p.nanos, note := if p.note = "" then t.note else p.note }
  if totals.any (·.name == p.name) then totals.map fun t => if t.name == p.name then grow t else t
  else totals ++ [grow { name := p.name }]

def report (t : Timer) : List PhaseTotal := t.phases.toList.foldl tally []

def totalNanos (t : Timer) : Nat := t.phases.foldl (· + ·.nanos) 0

/-- The phases of units by falling duration, at most `n` of them unless `n` is negative. -/
def slowest (t : Timer) (n : Int) : List Phase :=
  let ordered := (t.phases.toList.filter (·.unit ≠ "")).mergeSort fun a b => b.nanos ≤ a.nanos
  if n < 0 then ordered else ordered.take n.toNat

/-- Milliseconds with two decimals, in seven columns. -/
def millis (nanos : Nat) : String :=
  let hundredths := (nanos + 5000) / 10000
  let digits := toString (hundredths / 100) ++ "." ++ toString (hundredths % 100 / 10) ++ toString (hundredths % 10)
  padLeft 7 digits ++ " ms"

def summary (t : Timer) : String :=
  let line (p : PhaseTotal) : String :=
    "  " ++ padRight 20 p.name ++ " " ++ millis p.nanos ++ "  x" ++ toString p.count ++
      (if p.note = "" then "" else "  // " ++ p.note) ++ "\n"
  "timings:\n" ++ String.join (t.report.map line) ++ "  " ++ padRight 20 "total" ++ " " ++ millis t.totalNanos ++ "\n"

/-- How many phases of units a timing report lists. -/
def slowestShown : Int := 5

/-- The summary followed by the slowest phases. -/
def text (t : Timer) : String :=
  t.summary ++ String.join ((t.slowest slowestShown).map fun p =>
    "  slow: " ++ padRight 8 p.name ++ " " ++ millis p.nanos ++ "  " ++ p.unit ++ "\n")

def document (t : Timer) : Json :=
  let ms (nanos : Nat) : Json := .number (fraction nanos 6)
  let slow := (t.slowest slowestShown).map fun p =>
    Json.object [("unit", Json.text p.unit), ("phase", Json.text p.name), ("duration_ms", ms (p.nanos / 1000 * 1000))]
  .object ([("kind", Json.text "build"), ("total_ms", ms t.totalNanos),
      ("phases", if t.phases.isEmpty then .null else Json.list (t.report.map fun p =>
        .object ([("name", Json.text p.name), ("count", Json.int p.count), ("duration_ms", ms p.nanos)] ++
          (if p.note = "" then [] else [("note", Json.text p.note)]))))] ++
    (if slow.isEmpty then [] else [("slowest", Json.list slow)]))

end Timer

end TreeCompiler
