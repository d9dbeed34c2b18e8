import TreeCompiler.Build.Cache
import TreeCompiler.Build.Compile
import TreeCompiler.Build.Timer
import TreeCompiler.Trace.Log

/-!
# Building one unit

`buildUnit` compiles the unit in a file: it reads and decodes the file, asks the cache, compiles, writes the program and
stores it in the cache. What happens on the way is kept in a `BuildState`.

* `UnitFailure` : why a unit could not be compiled, mistakes of the user apart;
* `BuildEvent` : a step of the work on a unit, or the end of the whole build;
* `Notice` : a line for the log or the trace, in the order in which they came.
-/

namespace TreeCompiler

inductive UnitFailure
  | file (e : FileError)
  | unit (e : UnitError)
  | compile (f : CompileFailure)
deriving DecidableEq, Repr, Inhabited

namespace UnitFailure

def message : UnitFailure → String
  | file e => e.message
  | unit e => e.message
  | compile f => f.message

end UnitFailure

/-- Without a unit it speaks of the whole build. -/
structure BuildEvent where
  unit : String := ""
  stage : Option Stage := none
  status : Status
  failure : Option UnitFailure := none
deriving Inhabited

inductive Notice
  | trace (ev : TraceEvent)
  | log (r : LogRecord)
deriving Inhabited

structure BuildOptions where
  compile : CompileOptions := {}
  /-- The directory of the cache. -/
  cache : Option String := none
  configDigest : String := ""
  /-- Where programs are written; empty for beside their units. -/
  outDir : String := ""
  jobs : Int := 1
deriving Inhabited

/-- Everything that a build reads and changes. Lists are kept newest first. -/
structure BuildState where
  disk : Disk := {}
  timer : Timer := {}
  tracer : Tracer := {}
  events : List BuildEvent := []
  notices : List Notice := []
deriving Inhabited

abbrev BuildM := StateM BuildState

structure UnitResult where
  unit : String
  files : Option FileTable := none
  bag : Bag := {}
  output : Option Artifact := none
  /-- Where the program was written, empty if it was not. -/
  written : String := ""
  digest : Option Bytes := none
  cached : Bool := false
  failure : Option UnitFailure := none
deriving Inhabited

namespace UnitResult

def failed (r : UnitResult) : Bool := r.failure.isSome || r.bag.hasErrors

/-- What is reported of the failure. -/
def failureText? (r : UnitResult) : Option String := r.failure.map fun f => r.unit ++ ": " ++ f.message

end UnitResult

namespace BuildState

/-- Moves the traced events that came since the last notice to the notices. -/
def drain (s : BuildState) : BuildState :=
  { s with
    notices := s.tracer.streamed.foldl (fun ns ev => .trace ev :: ns) s.notices
    tracer := { s.tracer with streamed := [] } }

def log (s : BuildState) (r : LogRecord) : BuildState :=
  let s := s.drain
  { s with notices := .log r :: s.notices }

end BuildState

def report (ev : BuildEvent) : BuildM Unit := modify fun s => { s with events := ev :: s.events }

def logRecord (level : LogLevel) (message : String) (fields : List (String × String)) : BuildM Unit :=
  modify (·.log { level, message, fields })

/-- Reports that a unit enters a stage, and times the work there. -/
def duringStage {α : Type} (unit : String) (stage : Stage) (work : BuildM α) : BuildM α := do
  report { unit, stage := some stage, status := .working }
  let s ← get
  let (index, timer) := s.timer.start stage.name unit
  set { s with timer }
  let r ← work
  modify fun s => { s with timer := s.timer.stop index "" 0 }
  return r

def openSpan (scope : Nat) (name : String) : BuildM OpenSpan := do
  let s ← get
  let (span, tracer) := s.tracer.start scope name 0
  set { s with tracer }
  return span

def closeSpan (span : OpenSpan) (detail : String) : BuildM Unit :=
  modify fun s => { s with tracer := s.tracer.close span detail }

/-- A result with the stage and status that end the work on it. -/
structure Ending where
  result : UnitResult
  stage : Stage
  status : Status

namespace Ending

def failure (r : UnitResult) (stage : Stage) (f : UnitFailure) : Ending :=
  { result := { r with failure := some f }, stage, status := .error }

end Ending

def loadUnit (path : String) : BuildM (Except UnitFailure (Bytes × Tree)) :=
  duringStage path .load do
    let d := (← get).disk
    return do
      let bytes ← (d.read path).mapError .file
      return (bytes, ← (Tree.decodeUnit bytes).mapError .unit)

/-- Analyzes and, as far as it comes to that, generates. -/
def compileLoaded (o : BuildOptions) (path : String) (tree : Tree) : BuildM Compiled := do
  let c ← duringStage path .analyze do
    let s ← get
    let c := tree.compile o.compile s.tracer
    set { s with tracer := c.tracer }
    return c
  if c.stage = .emit then duringStage path .emit (pure ())
  return c

/-- Writes the program of a result. -/
def writeProgram (o : BuildOptions) (r : UnitResult) (a : Artifact) : BuildM (Except UnitFailure UnitResult) :=
  duringStage r.unit .write do
    let out := Artifact.outputPath r.unit o.outDir
    let s ← get
    match s.disk.makeDirs (Path.dir out) >>= fun d => d.replace out a.encode with
    | .error e => return .error (.file e)
    | .ok disk =>
      set { s with disk }
      logRecord .debug "artifact written" [("unit", r.unit), ("out", out), ("instrs", toString a.program.code.size)]
      return .ok { r with output := some a, written := out }

/-- A result served from the cache. -/
def useCached (o : BuildOptions) (r : UnitResult) (e : CacheEntry) : BuildM Ending := do
  let r := { r with cached := true, bag := r.bag.addAll e.diagnostics }
  if o.compile.checkOnly then return ⟨r, .load, .cached⟩
  match ← writeProgram o r { program := e.program, debug := e.debug } with
  | .ok r => return ⟨r, .load, .cached⟩
  | .error f => return .failure r .write f

def storeCached (o : BuildOptions) (r : UnitResult) (digest : Bytes) (a : Artifact) : BuildM Unit := do
  match o.cache with
  | none => pure ()
  | some dir =>
    let s ← get
    match Cache.store s.disk dir digest
      { unit := r.unit, program := a.program, debug := a.debug, diagnostics := r.bag.items } with
    | .ok disk => set { s with disk }
    | .error e => logRecord .warn "cache write failed" [("unit", r.unit), ("err", e.message)]

def compileFresh (o : BuildOptions) (r : UnitResult) (digest : Bytes) (tree : Tree) : BuildM Ending := do
  let c ← compileLoaded o r.unit tree
  let r := { r with bag := c.bag }
  match c.failure, c.output with
  | some f, _ => return .failure r c.stage (.compile f)
  | none, none => return ⟨r, c.stage, if r.bag.hasErrors then .error else .done⟩
  | none, some (program, debug) =>
    let a : Artifact := { program, debug := some debug }
    match ← writeProgram o r a with
    | .error f => return .failure { r with output := some a } .write f
    | .ok r =>
      storeCached o r digest a
      return ⟨r, .write, .done⟩

def askCache (o : BuildOptions) (unit : String) (digest : Bytes) : BuildM (Option CacheEntry) := do
  match o.cache with
  | none => return none
  | some dir =>
    match Cache.find (← get).disk dir digest with
    | .hit e => return some e
    | .miss => return none
    | .unreadable reason =>
      logRecord .warn "cache entry unreadable" [("unit", unit), ("key", digest.toHex), ("err", reason)]
      return none

def endUnit (o : BuildOptions) (r : UnitResult) : BuildM Ending := do
  match ← loadUnit r.unit with
  | .error f => return .failure r .load f
  | .ok (bytes, tree) =>
    let digest := unitDigest bytes o.configDigest
    let r := { r with files := some tree.files, digest := some digest }
    match ← askCache o r.unit digest with
    | some e => useCached o r e
    | none => compileFresh o r digest tree

def buildUnit (o : BuildOptions) (path : String) : BuildM UnitResult := do
  let span ← openSpan TraceScope.unit path
  let e ← endUnit o { unit := path, bag := Bag.ofLimit o.compile.maxDiagnostics }
  report { unit := path, stage := some e.stage, status := e.status, failure := e.result.failure }
  closeSpan (span.withExtra "diagnostics" (toString e.result.bag.items.length)) e.status.name
  return e.result

end TreeCompiler
