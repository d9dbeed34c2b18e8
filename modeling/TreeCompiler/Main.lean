import TreeCompiler.Command.Run

/-!
# The tool

Reads the files that a command may need into a `Disk`, runs the command, and writes back what it changed.
-/

namespace TreeCompiler.Tool

/-- Adds a file, or a directory with everything below it. What cannot be read is left out. -/
def readTree (d : Disk) (path : String) : IO Disk := do
  try
    let place := (← IO.currentDir) / path
    if ← place.isDir then
      let d := (d.makeDirs path).toOption.getD d
      (← place.walkDir).toList.foldlM (fun d p => do
        if ← p.isDir then return (d.makeDirs p.toString).toOption.getD d
        let content ← IO.FS.readBinFile p
        return d.put (Path.clean p.toString) (.file content.toList)) d
    else
      let content ← IO.FS.readBinFile place
      let d := (d.makeDirs (Path.dir path)).toOption.getD d
      return d.put path (.file content.toList)
  catch _ => return d

/-- A directory and those above it. -/
def upwards : Nat → String → List String
  | 0, _ => []
  | fuel + 1, dir => dir :: if Path.dir dir = dir then [] else upwards fuel (Path.dir dir)

def readDisk (workDir cacheDir : String) (args : List String) : IO Disk := do
  let configs := (upwards workDir.length workDir).map fun dir => Path.join [dir, Settings.fileName]
  let given := (args.filter fun a => !a.startsWith "-").map (Path.absolute workDir)
  (configs ++ [workDir, cacheDir] ++ given).foldlM readTree (Disk.ofWorkDir workDir)

def writeEntry (before : Disk) (place : String) (e : DiskEntry) : IO Unit := do
  if before.entry? place = some e then return
  match e with
  | .directory => IO.FS.createDirAll place
  | .file content => IO.FS.writeBinFile place ⟨content.toArray⟩

/-- Writes the octets of a text. -/
def writeText (stream : IO.FS.Stream) (text : String) : IO Unit := do
  stream.write ⟨(Utf8.encode text).toArray⟩
  stream.flush

def cacheHome : IO String := do
  match ← IO.getEnv "XDG_CACHE_HOME" with
  | some dir => if dir ≠ "" then return dir
  | none => pure ()
  return Path.join [(← IO.getEnv "HOME").getD "/", ".cache"]

end TreeCompiler.Tool

open TreeCompiler in
def main (args : List String) : IO UInt32 := do
  let workDir := (← IO.currentDir).toString
  let cacheHome ← Tool.cacheHome
  let disk ← Tool.readDisk workDir (Path.join [cacheHome, "loom"]) args
  let stdout ← IO.getStdout
  let colors := (← stdout.isTty) && ((← IO.getEnv "NO_COLOR").getD "") = ""
  let o := Command.run {} { cacheHome, colors } disk (args.map fun a => Utf8.ofChars a.toList)
  Tool.writeText stdout o.out
  Tool.writeText (← IO.getStderr) (o.err ++ o.complaint (·.message))
  for (place, e) in o.disk.entries.reverse do
    Tool.writeEntry disk place e
  return o.exitCode.toUInt32
