import TreeCompiler.Build.Project
import TreeCompiler.Command.Basic
import TreeCompiler.Settings.Reader

/-!
# Sessions

A `Session` is the state of one invocation: the settings with the flags applied to them, the files, and what has been
printed.

* `CommandError` : why a command ended without success;
* `Session.start` : reads the settings, applies the flags, and opens the log and the trace;
* `Session.finish` : writes what is still held back.
-/

namespace TreeCompiler

/-- What a command finds around it. -/
structure Environment where
  cacheHome : String := ""
  /-- Whether output goes to a terminal that shows colors. -/
  colors : Bool := false
  processors : Nat := 1
deriving Inhabited

inductive CommandError
  | flag (e : FlagError)
  | use (e : Command.UseError)
  | load (e : Settings.LoadFailure)
  | setting (e : SettingsError)
  | color (word : String)
  | progress (word : String)
  | versionFormat (word : String)
  | logFile (e : FileError)
  | traceFile (e : FileError)
  | profile (kind : String) (e : FileError)
  | units (e : FileError)
  | noUnits (args : List String)
  | externs (e : RegisterError)
  | build (e : BuildFailure)
  | artifact (e : Artifact.ReadFailure)
  /-- Shown already, as findings of units. -/
  | reported
deriving DecidableEq, Repr, Inhabited

namespace CommandError

def message : CommandError → String
  | flag e => e.message
  | use e => e.message
  | load e => e.message
  | setting e => e.message
  | color word => "invalid --color value " ++ quote word ++ " (expected auto|on|off)"
  | progress word => "invalid --ui value " ++ word ++ " (expected auto|on|off)"
  | versionFormat word => "unsupported format " ++ quote word ++ " (must be pretty or json)"
  | logFile e => "failed to open log file: " ++ e.message
  | traceFile e => "failed to create tracer: open trace output: " ++ e.message
  | profile kind e => kind ++ ": " ++ e.message
  | units e => e.message
  | noUnits args => "no " ++ Artifact.unitExtension ++ " units found in " ++ String.intercalate " " args
  | externs e => "externs: " ++ e.message
  | build e => e.message
  | artifact e => e.message
  | reported => "compilation failed"

end CommandError

structure Session where
  command : Command := .root
  flags : FlagValues := {}
  env : Environment := {}
  settings : Settings := {}
  color : Bool := false
  build : BuildState := {}
  out : String := ""
  err : String := ""
  logFile : Option String := none
  /-- The file that traced events go to; none for the error output. -/
  traceFile : Option String := none
  /-- Everything is open and the command's own work can begin. -/
  ready : Bool := false
deriving Inhabited

abbrev SessionM := ExceptT CommandError (StateM Session)

namespace Session

def quiet (s : Session) : Bool := s.flags.isOn "quiet"

def print (text : String) : SessionM Unit := modify fun s => { s with out := s.out ++ text }

def printError (text : String) : SessionM Unit := modify fun s => { s with err := s.err ++ text }

/-- Adds to a file of the session. -/
def addTo (s : Session) (path text : String) : Session :=
  { s with build := { s.build with disk := (s.build.disk.append path (Utf8.encode text)).toOption.getD s.build.disk } }

/-- The form of a traced event in a file, by the name of the file. -/
def traceText (path : String) (ev : TraceEvent) : String :=
  if path.endsWith ".ndjson" then ev.json.compact ++ "\n" else ev.line

def logDocument (r : LogRecord) : Json :=
  .object (("level", .text r.level.name) :: ("msg", .text r.message) :: r.fields.map fun (k, v) => (k, .text v))

def present (s : Session) : Notice → Session
  | .trace ev =>
    match s.traceFile with
    | some path => s.addTo path (traceText path ev)
    | none => { s with err := s.err ++ ev.line }
  | .log r =>
    let r := { r with fields := ("cmd", s.command.name) :: r.fields }
    let s := if r.level = .warn || s.flags.isOn "verbose" then { s with err := s.err ++ r.line } else s
    match s.logFile with
    | some path => s.addTo path ((logDocument r).compact ++ "\n")
    | none => s

/-- Shows the notices that have come up since the last time. -/
def flush (s : Session) : Session :=
  let build := s.build.drain
  build.notices.reverse.foldl present { s with build := { build with notices := [] } }

/-- Runs a step of the build and shows its notices. -/
def during {α : Type} (work : BuildM α) : SessionM α := do
  let s ← get
  let (r, build) := work.run s.build
  set { s with build }.flush
  return r

def log (level : LogLevel) (message : String) (fields : List (String × String)) : SessionM Unit :=
  during (logRecord level message fields)

def setDisk (disk : Disk) : SessionM Unit := modify fun s => { s with build := { s.build with disk } }

/-! ## Settings -/

/-- The settings with the flags over them. Asking for a trace file turns tracing on, as a stream. -/
def overridden (s : Settings) (v : FlagValues) : Settings :=
  let s := if v.isGiven "max-diagnostics" then
    { s with compile := { s.compile with maxDiagnostics := v.number "max-diagnostics" } } else s
  let s := if v.isGiven "diag-format" then
    { s with diagnostics := { s.diagnostics with format := v.text "diag-format" } } else s
  let t := s.trace
  let t := if v.isGiven "trace-level" then { t with level := v.text "trace-level" } else t
  let t := if v.isGiven "trace-mode" then { t with mode := v.text "trace-mode" } else t
  let t := if v.isGiven "trace" then
    { output := v.text "trace"
      level := if !v.isGiven "trace-level" && t.level = "off" then "phase" else t.level
      mode := if !v.isGiven "trace-mode" && t.mode = "ring" then "stream" else t.mode } else t
  { s with trace := t }

def readSettings : SessionM Unit := do
  let s ← get
  let path := s.flags.text "config"
  let disk := s.build.disk
  match if path = "" then Settings.discover disk "." else Settings.load disk path with
  | .error e => throw (.load e)
  | .ok settings =>
    let settings := overridden settings s.flags
    match settings.validate with
    | .error e => throw (.setting e)
    | .ok () => set { s with settings }

def chooseColor : SessionM Unit := do
  let s ← get
  let word := s.flags.text "color" "auto"
  match lower word with
  | "on" => set { s with color := true }
  | "off" => set { s with color := false }
  | "auto" | "" => set { s with color := s.env.colors }
  | _ => throw (.color word)

/-! ## Log and trace -/

def openLog : SessionM Unit := do
  let s ← get
  let path := s.flags.text "log-file"
  if path ≠ "" then
    match s.build.disk.append path [] with
    | .error e => throw (.logFile e)
    | .ok disk => set { s with logFile := some path, build := { s.build with disk } }

/-- The tracer that valid settings describe. -/
def tracerOf (t : TraceSettings) : Tracer :=
  { level := (TraceLevel.parse t.level).toOption.getD .off, mode := (StorageMode.parse t.mode).toOption.getD .ring }

/-- A file is opened for a trace that is streamed to one. -/
def openTrace : SessionM Unit := do
  let s ← get
  let tracer := tracerOf s.settings.trace
  let path := s.settings.trace.output
  set { s with build := { s.build with tracer } }
  if tracer.isEnabled && tracer.mode ≠ .ring && path ≠ "" && path ≠ "-" then
    match s.build.disk.write path [] with
    | .error e => throw (.traceFile e)
    | .ok disk => set { s with traceFile := some path, build := { s.build with tracer, disk } }

/-- Creates the files of profiles that are taken while the command runs. -/
def openProfiles : SessionM Unit := do
  for (flag, kind) in [("cpu-profile", "cpu profile"), ("runtime-trace", "runtime trace")] do
    let s ← get
    let path := s.flags.text flag
    if path ≠ "" then
      match s.build.disk.write path [] with
      | .error e => throw (.profile kind e)
      | .ok disk => setDisk disk

/-- Everything before the command's own work. The trace comes last, so that a failure leaves none behind. -/
def start : SessionM Unit := do
  readSettings
  chooseColor
  openLog
  let s ← get
  if s.settings.path ≠ "" then log .debug "configuration loaded" [("path", s.settings.path)]
  openTrace
  openProfiles
  modify fun s => { s with ready := true }

/-! ## The end -/

def writeHeapProfile (s : Session) : Session :=
  let path := s.flags.text "mem-profile"
  if path = "" || !s.ready then s
  else match s.build.disk.write path [] with
    | .ok disk => { s with build := { s.build with disk } }
    | .error e =>
      let r : LogRecord := { level := .warn, message := "profiling", fields := [("err", "heap profile: " ++ e.message)] }
      { s with build := s.build.log r }.flush

/-- A trace that was kept in a ring is printed. -/
def dumpTrace (s : Session) : Session :=
  let t := s.build.tracer
  if !t.isEnabled || t.mode ≠ .ring then s
  else
    let r : LogRecord :=
      { level := .debug, message := "trace ring overflowed", fields := [("dropped", toString t.ring.dropped)] }
    let s := if t.ring.dropped = 0 then s else { s with build := s.build.log r }.flush
    { s with err := s.err ++ String.join (t.ring.snapshot.map (·.line)) }

def finish (s : Session) : Session := s.flush.writeHeapProfile.dumpTrace

end Session

end TreeCompiler
