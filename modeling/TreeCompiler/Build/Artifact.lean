import TreeCompiler.Code.Program
import TreeCompiler.Debug.Table
import TreeCompiler.Disk

/-!
# Program files

An `Artifact` is a program with its debug table, the content of a program file.

* `encode`, `decode` : the wire form. Decoding validates the program;
* `read` : the artifact in a file;
* `outputPath` : where the program of a unit is written.
-/

namespace TreeCompiler

structure Artifact where
  program : Program
  debug : Option DebugTable := none
deriving DecidableEq, Repr, Inhabited

inductive ArtifactError
  | malformed
  | noProgram
  | program (e : ProgramError)
deriving DecidableEq, Repr, Inhabited

namespace ArtifactError

def message : ArtifactError → String
  | malformed => "decode artifact: malformed"
  | noProgram => "artifact has no program"
  | program (.version n) => (ProgramError.version n).message
  | program e => "decode artifact: " ++ e.message

end ArtifactError

namespace Artifact

def toWire (a : Artifact) : Wire :=
  .record ([("program", a.program.toWire)] ++
    match a.debug with
    | some d => [("debug", d.toWire)]
    | none => [])

def encode (a : Artifact) : Bytes := a.toWire.encode

/-- The two parts as they are read, either of which may be missing. -/
structure Draft where
  program : Option Program.Draft := none
  debug : Option DebugTable.Draft := none
deriving Inhabited

def Draft.ofWire? : Wire → Option Draft :=
  Wire.overRecord? ["program", "debug"] {} (fun name w a =>
    match name with
    | "program" => do return { a with program := ← Wire.overOptional? {} Program.Draft.over? a.program w }
    | "debug" => do return { a with debug := ← Wire.overOptional? {} DebugTable.Draft.over? a.debug w }
    | _ => some a) {}

def decode (bs : Bytes) : Except ArtifactError Artifact := do
  let some (w, _) := Wire.decode? bs | throw .malformed
  let some parts := Draft.ofWire? w | throw .malformed
  let some program := parts.program | throw .noProgram
  match program.program.checked with
  | .ok program => return { program, debug := parts.debug.map (·.table) }
  | .error e => throw (.program e)

/-- Why a file gives no artifact. -/
inductive ReadFailure
  | file (e : FileError)
  | content (path : String) (e : ArtifactError)
deriving DecidableEq, Repr, Inhabited

def ReadFailure.message : ReadFailure → String
  | file e => e.message
  | content path e => path ++ ": " ++ e.message

def read (d : Disk) (path : String) : Except ReadFailure Artifact :=
  match d.read path with
  | .ok bytes => (decode bytes).mapError (.content path)
  | .error e => .error (if e.cause = .isDirectory then .content path .malformed else .file e)

/-- The extension of program files. -/
def extension : String := ".lbc"

/-- The extension of encoded units. -/
def unitExtension : String := ".lasts"

/-- The unit's last segment with its extension replaced, in `outDir` or, when that is empty, beside the unit. -/
def outputPath (unit outDir : String) : String :=
  let name := Path.trimEnd (Path.base unit) (Path.ext unit) ++ extension
  Path.join [if outDir = "" then Path.dir unit else outDir, name]

end Artifact

end TreeCompiler
