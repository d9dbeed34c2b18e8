import TreeCompiler.Build.Unit

/-!
# Building a project

* `Disk.listUnits` : the unit files that arguments stand for, sorted and each once;
* `buildUnits` : builds units one after the other. A unit that fails does not stop the others; no two units may write
  the same program.
-/

namespace TreeCompiler

/-- A file stands for itself, a directory for the unit files below it. -/
def Disk.unitsOf (d : Disk) (arg : String) : Except FileError (List String) := do
  match ← d.stat arg with
  | .file _ => return [Path.clean arg]
  | .directory =>
    let paths := (d.filesUnder arg).map fun (rel, _) => Path.join [arg, rel]
    return paths.filter (·.endsWith Artifact.unitExtension)

def Disk.listUnits (d : Disk) (args : List String) : Except FileError (List String) := do
  let found ← args.mapM d.unitsOf
  return found.flatten.eraseDups.mergeSort textLe

inductive BuildFailure
  | sameOutput (first second path : String)
  | cancelled
deriving DecidableEq, Repr, Inhabited

namespace BuildFailure

def message : BuildFailure → String
  | sameOutput first second path => "units " ++ first ++ " and " ++ second ++ " both write " ++ path
  | cancelled => CompileFailure.cancelled.message

end BuildFailure

/-- Refuses units of which two would write the same program. `owners` holds the programs so far. -/
def checkOutputs (outDir : String) (owners : List (String × String)) : List String → Except BuildFailure Unit
  | [] => .ok ()
  | unit :: rest =>
    let out := Artifact.outputPath unit outDir
    match owners.lookup out with
    | some first => .error (.sameOutput first unit out)
    | none => checkOutputs outDir ((out, unit) :: owners) rest

structure BuildOutcome where
  /-- In the order of the units; none for one that was not begun. -/
  results : List (Option UnitResult) := []
  failure : Option BuildFailure := none
deriving Inhabited

namespace BuildOutcome

def finished (b : BuildOutcome) : List UnitResult := b.results.filterMap id

def failedCount (b : BuildOutcome) : Nat := (b.finished.filter (·.failed)).length

def cachedCount (b : BuildOutcome) : Nat := (b.finished.filter (·.cached)).length

end BuildOutcome

/-- Builds units of which no two share a program. -/
def buildAll (o : BuildOptions) (units : List String) : BuildM BuildOutcome := do
  let count := toString units.length
  let span ← openSpan TraceScope.driver "compile_units"
  let span := (span.withExtra "units" count).withExtra "jobs" (toString (if o.jobs ≤ 0 then 1 else o.jobs))
  let s ← get
  let (index, timer) := s.timer.start "build" ""
  set { s with timer }
  units.forM fun unit => report { unit, status := .queued }
  let b : BuildOutcome ←
    if o.compile.cancelled then pure { results := units.map fun _ => none, failure := some .cancelled }
    else do pure { results := (← units.mapM (buildUnit o)).map some }
  closeSpan (span.withExtra "failed" (toString b.failedCount)) ""
  report { status := .done }
  modify fun s => { s with timer := s.timer.stop index (count ++ " units") 0 }
  return b

def buildUnits (o : BuildOptions) (units : List String) : BuildM BuildOutcome :=
  match if o.compile.checkOnly then .ok () else checkOutputs o.outDir [] units with
  | .error f => return { failure := some f }
  | .ok () => if units.isEmpty then return {} else buildAll o units

end TreeCompiler
