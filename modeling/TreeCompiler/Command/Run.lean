import TreeCompiler.Code.Listing
import TreeCompiler.Command.Session
import TreeCompiler.Command.Usage
import TreeCompiler.Diagnostic.Document
import TreeCompiler.Diagnostic.Pretty
import TreeCompiler.Version

/-!
# Running commands

`Command.run` carries out a command line on a disk: what is printed, the disk afterwards and, without success, why.
-/

namespace TreeCompiler

/-- The outcome of a command line. -/
structure CommandOutcome where
  disk : Disk
  out : String := ""
  err : String := ""
  failure : Option CommandError := none
deriving Inhabited

namespace CommandOutcome

def exitCode (o : CommandOutcome) : Nat := if o.failure.isSome then 1 else 0

/-- The line that tells of a failure that nothing has told of yet, with the text that stands for it. -/
def complaint (o : CommandOutcome) (text : CommandError → String) : String :=
  match o.failure with
  | none | some .reported => ""
  | some e => "error: " ++ text e ++ "\n"

end CommandOutcome

namespace Session

/-! ## build and check -/

/-- The view of progress is for terminals; only its name is checked here. -/
def checkProgress : SessionM Unit := do
  let word := (← get).flags.text "ui" "off"
  if !(["", "off", "on", "auto"].contains (settingWord word)) then throw (.progress word)

def paths (s : Session) : PathView :=
  { style := (PathStyle.parse? s.settings.diagnostics.pathStyle).getD .auto, workDir := s.build.disk.workDir }

/-- The findings of a unit in the chosen form. -/
def findings (s : Session) (r : UnitResult) (files : FileTable) : String :=
  let d := s.settings.diagnostics
  match d.format with
  | "json" => (r.bag.document r.unit files { positions := true, paths := s.paths, notes := d.notes }).indented ++ "\n"
  | "summary" => if r.bag.items.isEmpty && s.quiet then "" else r.bag.summary r.unit
  | _ =>
    if r.bag.items.isEmpty || (s.quiet && !r.bag.hasErrors) then ""
    else r.bag.pretty files { color := s.color, context := d.context, paths := s.paths, notes := d.notes }

def reportUnit (s : Session) (r : UnitResult) : String :=
  ((r.failureText?.map fun text => r.unit ++ ": " ++ text ++ "\n").getD "") ++
    ((r.files.map (s.findings r)).getD "")

/-- The cache directory, created if need be; without it the build goes on. -/
def openCache : SessionM (Option String) := do
  let s ← get
  if !s.settings.cache.enabled || s.command ≠ .build || s.flags.isOn "no-cache" then return none
  let dir := s.settings.cacheDir s.env.cacheHome
  match s.build.disk.makeDirs dir with
  | .ok disk =>
    setDisk disk
    return some dir
  | .error e =>
    log .warn "disk cache disabled" [("err", e.message)]
    return none

def buildOptions : SessionM BuildOptions := do
  let s ← get
  let compile ← match s.settings.compileOptions with
    | .ok o => pure o
    | .error e => throw (.externs e)
  let configured := if 0 < s.settings.compile.jobs then s.settings.compile.jobs else s.env.processors
  let jobs := if 0 < s.flags.number "jobs" then s.flags.number "jobs" else configured
  return {
    compile := { compile with checkOnly := s.command ≠ .build }
    cache := ← openCache
    configDigest := s.settings.digest
    outDir := s.flags.text "out"
    jobs }

def printTimings : SessionM Unit := do
  let s ← get
  if s.flags.isOn "timings" then
    printError (if s.settings.diagnostics.format = "json" then s.build.timer.document.compact ++ "\n"
      else s.build.timer.text)

def compileUnits : SessionM Unit := do
  checkProgress
  let s ← get
  let args := if s.flags.args.isEmpty then ["."] else s.flags.args
  let units ← match s.build.disk.listUnits args with
    | .ok units => pure units
    | .error e => throw (.units e)
  if units.isEmpty then throw (.noUnits args)
  let o ← buildOptions
  log .debug "compiling" [("units", toString units.length), ("jobs", toString o.jobs),
    ("mode", if o.compile.checkOnly then "1" else "0")]
  let b ← during (buildUnits o units)
  if let some f := b.failure then throw (.build f)
  print (String.join (b.finished.map s.reportUnit))
  printTimings
  if 0 < b.failedCount then
    if !s.quiet then
      printError (toString b.failedCount ++ " of " ++ toString b.results.length ++ " units failed\n")
    throw .reported
  if !s.quiet && !o.compile.checkOnly then
    print ("built " ++ toString b.results.length ++ " units (" ++ toString b.cachedCount ++ " cached)\n")

/-! ## disasm and version -/

def disassemble : SessionM Unit := do
  let s ← get
  match Artifact.read s.build.disk (s.flags.args.headD "") with
  | .error e => throw (.artifact e)
  | .ok a =>
    let position : Nat → String := match a.debug with
      | some d => if s.flags.isOn "no-pos" then fun _ => "" else fun ip => d.position ip
      | none => fun _ => ""
    print (a.program.listing { raw := s.flags.isOn "raw", position })

def versionDocument (r : Release) : Json :=
  .object ([("tool", Json.text Command.tool), ("version", Json.text r.text),
      ("program_version", Json.int programVersion)] ++
    Json.unlessEmpty "git_commit" (r.commit = "") (.text r.commit) ++
    Json.unlessEmpty "build_date" (r.date = "") (.text r.date))

def printVersion (r : Release) : SessionM Unit := do
  let s ← get
  let word := s.flags.text "format" "pretty"
  match lower word with
  | "pretty" => print (r.banner s.color)
  | "json" => print ((versionDocument r).indented ++ "\n")
  | _ => throw (.versionFormat word)

end Session

namespace Command

/-- The command's own work. -/
def work (r : Release) : Command → SessionM Unit
  | build | check => do
    Session.start
    Session.compileUnits
  | disasm => do
    Session.start
    Session.disassemble
  | version => do
    Session.start
    Session.printVersion r
  | help => do Session.print (helpOn (← get).flags.args)
  | _ => pure ()

/-- Runs a command with the flags it was given. Questions about it come before its work. -/
def runWith (c : Command) (r : Release) (env : Environment) (disk : Disk) (flags : FlagValues) : CommandOutcome :=
  if flags.isOn "help" then { disk, out := c.helpText }
  else if flags.isOn "version" then { disk, out := tool ++ " version " ++ r.text ++ "\n" }
  else if !c.isRunnable then { disk, out := c.helpText }
  else match c.checkArgs flags.args with
    | .error e => { disk, failure := some (.use e) }
    | .ok () =>
      let (result, s) := (c.work r).run { command := c, flags, env, build := { disk } }
      let s := s.finish
      let failure := match result with
        | .ok () => none
        | .error e => some e
      { disk := s.build.disk, out := s.out, err := s.err, failure }

def run (r : Release) (env : Environment) (disk : Disk) (args : List String) : CommandOutcome :=
  match resolve args with
  | .error e => { disk, failure := some (.use e) }
  | .ok (c, rest) =>
    match FlagValues.parse c.allFlags rest with
    | .error e => { disk, failure := some (.flag e) }
    | .ok flags => c.runWith r env disk flags

end Command

end TreeCompiler
