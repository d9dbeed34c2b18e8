import TreeCompiler.Build.Compile
import TreeCompiler.Diagnostic.Location
import TreeCompiler.Hash.Xxh3

/-!
# Settings

`Settings` is everything that a configuration file can set, with the values that hold where it sets nothing.

* `Settings.validate` : the ranges of numbers and the choices of words;
* `Settings.digest` : a fingerprint of what changes compiled programs;
* `Settings.compileOptions` : what the compiler takes from the settings.
-/

namespace TreeCompiler

structure CompileSettings where
  maxDiagnostics : Int := 100
  valueRegisters : Int := 16
  refRegisters : Int := 16
  maxTryDepth : Int := 32
  /-- Units compiled at a time; 0 leaves it to the machine. -/
  jobs : Int := 0
  maxSweeps : Int := 8
deriving DecidableEq, Repr, Inhabited

structure DiagnosticSettings where
  format : String := "pretty"
  pathStyle : String := "auto"
  context : Int := 1
  notes : Bool := true
deriving DecidableEq, Repr, Inhabited

structure TraceSettings where
  level : String := "off"
  output : String := "-"
  mode : String := "ring"
deriving DecidableEq, Repr, Inhabited

structure CacheSettings where
  enabled : Bool := true
  /-- Empty for the user's cache directory. -/
  dir : String := ""
deriving DecidableEq, Repr, Inhabited

/-- The handles of each library's symbols. A library can be named without a table of symbols. -/
abbrev ExternTables := List (String × Option (List (String × Nat)))

structure Settings where
  /-- The file they were read from, empty for none. -/
  path : String := ""
  compile : CompileSettings := {}
  diagnostics : DiagnosticSettings := {}
  trace : TraceSettings := {}
  cache : CacheSettings := {}
  externs : Option ExternTables := none
deriving DecidableEq, Repr, Inhabited

inductive SettingsError
  | unreadable
  | unknownKeys (keys : List String)
  | tooSmall (name : String) (least got : Int)
  | unknownFormat (word : String)
  | unknownPathStyle (word : String)
  | contextRange (got : Int)
  | traceLevel (reason : String)
  | traceMode (reason : String)
  | zeroHandle (library symbol : String)
deriving DecidableEq, Repr, Inhabited

namespace SettingsError

def message : SettingsError → String
  | unreadable => "failed to parse TOML"
  | unknownKeys keys => "unknown keys: " ++ String.intercalate ", " keys
  | tooSmall name least got =>
    "[compile]." ++ name ++ " must be at least " ++ toString least ++ ", got " ++ toString got
  | unknownFormat word => "[diagnostics].format must be pretty, json or summary, got " ++ quote word
  | unknownPathStyle word => "[diagnostics].path_mode: unknown mode " ++ quote word
  | contextRange got => "[diagnostics].context must be within 0..10, got " ++ toString got
  | traceLevel reason => "[trace].level: " ++ reason
  | traceMode reason => "[trace].mode: " ++ reason
  | zeroHandle library symbol => "[externs." ++ library ++ "]." ++ symbol ++ ": handle 0 is reserved"

end SettingsError

namespace CompileSettings

/-- Each number with its name in the file and its least value. -/
def limits (s : CompileSettings) : List (String × Int × Int) :=
  [("max_diagnostics", s.maxDiagnostics, 1), ("t_registers", s.valueRegisters, 1), ("r_registers", s.refRegisters, 1),
   ("max_try_depth", s.maxTryDepth, 1), ("jobs", s.jobs, 0), ("max_resolve_sweeps", s.maxSweeps, 0)]

end CompileSettings

namespace Settings

/-- The pairs of library and symbol with their handles, by name. -/
def handles (s : Settings) : List (String × List (String × Nat)) :=
  ((s.externs.getD []).map fun (lib, syms) => (lib, (syms.getD []).mergeSort fun a b => textLe a.1 b.1)).mergeSort
    fun a b => textLe a.1 b.1

def validate (s : Settings) : Except SettingsError Unit := do
  s.compile.limits.forM fun (name, got, least) => if got < least then throw (.tooSmall name least got) else pure ()
  if !(["pretty", "json", "summary"].contains s.diagnostics.format) then throw (.unknownFormat s.diagnostics.format)
  if (PathStyle.parse? s.diagnostics.pathStyle).isNone then throw (.unknownPathStyle s.diagnostics.pathStyle)
  if s.diagnostics.context < 0 || 10 < s.diagnostics.context then throw (.contextRange s.diagnostics.context)
  if let .error reason := TraceLevel.parse s.trace.level then throw (.traceLevel reason)
  if let .error reason := StorageMode.parse s.trace.mode then throw (.traceMode reason)
  s.handles.forM fun (lib, syms) => syms.forM fun (sym, h) =>
    if h = 0 then throw (.zeroHandle lib sym) else pure ()

/-- What the digest is taken of: the numbers that shape programs, and every handle. -/
def digestText (s : Settings) : String :=
  let numbers := [s.compile.valueRegisters, s.compile.refRegisters, s.compile.maxTryDepth, s.compile.maxSweeps]
  String.join (numbers.map fun n => toString n ++ ";") ++
    String.join (s.handles.flatMap fun (lib, syms) =>
      syms.map fun (sym, h) => lib ++ "." ++ sym ++ "=" ++ toString h ++ ";")

def digest (s : Settings) : String := hexPadded 16 (Xxh3.hash (Utf8.encode s.digestText)).toNat

/-- The cache directory: the one that is set, else the tool's own below the user's. -/
def cacheDir (s : Settings) (cacheHome : String) : String :=
  if s.cache.dir ≠ "" then s.cache.dir else Path.join [cacheHome, "loom"]

/-- A number that must be positive, else its default. -/
def positiveOr (default : Nat) (n : Int) : Nat := if n ≤ 0 then default else n.toNat

def compileOptions (s : Settings) : Except RegisterError CompileOptions := do
  let loader ← Registry.ofTables s.handles
  return {
    maxDiagnostics := s.compile.maxDiagnostics
    analysis := {
      loader := some loader
      maxTryDepth := positiveOr 32 s.compile.maxTryDepth
      maxSweeps := positiveOr 8 s.compile.maxSweeps }
    emission := {
      values := positiveOr 16 s.compile.valueRegisters
      refs := positiveOr 16 s.compile.refRegisters } }

/-- The settings as one document. -/
def document (s : Settings) (cacheHome : String) : Json :=
  let c := s.compile
  let externs := s.externs.map fun tables => Json.object (tables.map fun (lib, syms) =>
    (lib, (syms.map fun syms => Json.object (syms.map fun (sym, h) => (sym, .nat h))).getD .null))
  .object ([("path", .text s.path), ("digest", .text s.digest),
    ("compile",
      .list ([c.maxDiagnostics, c.valueRegisters, c.refRegisters, c.maxTryDepth, c.jobs, c.maxSweeps].map .int)),
    ("diagnostics", .list [.text s.diagnostics.format, .text s.diagnostics.pathStyle, .int s.diagnostics.context,
      .bool s.diagnostics.notes]),
    ("trace", .texts [s.trace.level, s.trace.output, s.trace.mode]),
    ("cache", .list [.bool s.cache.enabled, .text s.cache.dir]), ("cache_dir", .text (s.cacheDir cacheHome)),
    ("externs", externs.getD .null)] ++ Json.unlessEmpty "jobs" (c.jobs ≤ 0) (.int c.jobs))

end Settings

end TreeCompiler
