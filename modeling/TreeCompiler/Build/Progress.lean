import TreeCompiler.Build.Event
import TreeCompiler.Text.Width

/-!
# The progress view

`Progress` follows the events of a build and shows one line for each unit under a headline. A unit that has reached its
end ignores later events.
-/

namespace TreeCompiler

structure UnitProgress where
  path : String
  label : String := "queued"
  final : Bool := false
deriving DecidableEq, Repr, Inhabited

structure Progress where
  title : String
  units : List UnitProgress
  failed : Nat := 0
  width : Nat := 80
  done : Bool := false
deriving Repr, Inhabited

/-- What is shown for a unit. A stage or status that is not known shows nothing. -/
def statusLabel : Option Stage → Option Status → String
  | some .load, some .working => "loading"
  | some .analyze, some .working => "analyzing"
  | some .emit, some .working => "emitting"
  | some .write, some .working => "writing"
  | none, some .working => ""
  | _, some s => s.name
  | _, none => ""

def Status.isFinal : Status → Bool
  | .done | .cached | .error => true
  | _ => false

namespace Progress

def ofUnits (title : String) (units : List String) : Progress := { title, units := units.map fun path => { path } }

/-- Takes in an event. Of several units with one path the last one is meant. -/
def apply (p : Progress) (unit : String) (stage : Option Stage) (status : Option Status) : Progress :=
  match (p.units.zipIdx.filter fun (u, _) => u.path == unit).getLast? with
  | none => p
  | some (u, i) =>
    if u.final then p
    else
      let u := { u with label := statusLabel stage status, final := (status.map (·.isFinal)).getD false }
      { p with units := p.units.set i u, failed := if status = some .error then p.failed + 1 else p.failed }

def close (p : Progress) : Progress := { p with done := true }

/-- A width that is not positive is ignored. -/
def resize (p : Progress) (width : Int) : Progress := if width ≤ 0 then p else { p with width := width.toNat }

def finished (p : Progress) : Nat := (p.units.filter (·.final)).length

/-- The first picture of the spinner. -/
def spinner : String := "⣾ "

/-- Columns of the status. -/
def statusWidth : Nat := 10

/-- Columns that are left for a path. -/
def nameWidth (p : Progress) : Nat := max 20 (p.width - statusWidth - 4)

def headline (p : Progress) : String :=
  let text := p.title ++ " (" ++ toString p.finished ++ "/" ++ toString p.units.length ++ ")" ++
    (if 0 < p.failed then ", " ++ toString p.failed ++ " failed" else "")
  if p.done then "done: " ++ text else spinner ++ " " ++ text

def unitLine (p : Progress) (u : UnitProgress) : String :=
  let name := Utf8.decode (Width.truncate (Utf8.encode u.path) p.nameWidth "...")
  "  " ++ padLeft statusWidth u.label ++ " " ++ name ++ "\n"

/-- The view without the bar under it. -/
def view (p : Progress) : String :=
  if p.units.isEmpty then ""
  else p.headline ++ "\n\n" ++ String.join (p.units.map p.unitLine) ++ "\n"

end Progress

end TreeCompiler
