import TreeCompiler.Text.Path
import TreeCompiler.Text.Utf8

/-!
# Files and directories

`Disk` is a file system with a working directory: clean absolute paths with what stands there.

* `locate` : the place that a path leads to, through directories that exist;
* `stat`, `read`, `filesUnder` : looking;
* `write`, `replace`, `makeDirs`, `removeAll` : changing. What cannot be done is a `FileError`.
-/

namespace TreeCompiler

inductive DiskEntry
  | file (content : Bytes)
  | directory
deriving DecidableEq, Repr, Inhabited

inductive FileCause
  | notFound
  | notDirectory
  | isDirectory
  | occupied
  | nameTooLong
  | invalid
deriving DecidableEq, Repr, Inhabited

namespace FileCause

def text : FileCause → String
  | notFound => "no such file or directory"
  | notDirectory => "not a directory"
  | isDirectory => "is a directory"
  | occupied => "file exists"
  | nameTooLong => "file name too long"
  | invalid => "invalid argument"

end FileCause

/-- What was attempted, on which path as it was given, and why it failed. -/
structure FileError where
  action : String
  path : String
  cause : FileCause
deriving DecidableEq, Repr, Inhabited

namespace FileError

def message (e : FileError) : String := e.action ++ " " ++ e.path ++ ": " ++ e.cause.text

end FileError

structure Disk where
  workDir : String := "/"
  entries : List (String × DiskEntry) := [("/", .directory)]
deriving Inhabited

namespace Disk

def entry? (d : Disk) (place : String) : Option DiskEntry := d.entries.lookup place

def put (d : Disk) (place : String) (e : DiskEntry) : Disk :=
  { d with entries := (place, e) :: d.entries.filter (·.1 ≠ place) }

/-- Octets that a name in a directory may have. -/
def nameLimit : Nat := 255

/-- Octets that a path may have. -/
def pathLimit : Nat := 4095

/-- Follows one segment from a place, which must be a directory. -/
def step (d : Disk) (here segment : String) : Except FileCause String :=
  match d.entry? here with
  | none => .error .notFound
  | some (.file _) => .error .notDirectory
  | some .directory =>
    if segment = "" || segment = "." then .ok here
    else if segment = ".." then .ok (Path.dir here)
    else if nameLimit < (Utf8.encode segment).length then .error .nameTooLong
    else .ok (Path.join [here, segment])

/-- The segments of a path that can be followed at all. -/
def segments (path : String) : Except FileCause (List String) :=
  if path = "" then .error .notFound
  else if path.toList.contains (Char.ofNat 0) then .error .invalid
  else if pathLimit < (Utf8.encode path).length then .error .nameTooLong
  else .ok (path.splitOn "/")

/-- Where a path starts. -/
def start (d : Disk) (path : String) : String := if Path.isAbs path then "/" else d.workDir

/-- The clean absolute path of a path; nothing need stand there. -/
def locate (d : Disk) (path : String) : Except FileCause String := do (← segments path).foldlM d.step (d.start path)

/-- The directory in which the last name of a path stands, and that name. Slashes at the end are passed over. -/
def locateLast (d : Disk) (path : String) : Except FileCause (String × String) := do
  let back := (← segments path).reverse.dropWhile (· = "")
  let here ← back.tail.reverse.foldlM d.step (d.start path)
  return (← d.step here "", back.headD "")

def look (d : Disk) (path : String) : Except FileCause DiskEntry := do
  match d.entry? (← d.locate path) with
  | some e => return e
  | none => throw .notFound

def stat (d : Disk) (path : String) : Except FileError DiskEntry := (d.look path).mapError fun c => ⟨"stat", path, c⟩

def isDirectory (d : Disk) (path : String) : Bool := d.look path matches .ok .directory

def read (d : Disk) (path : String) : Except FileError Bytes :=
  match d.look path with
  | .ok (.file content) => .ok content
  | .ok .directory => .error ⟨"read", path, .isDirectory⟩
  | .error c => .error ⟨"open", path, c⟩

/-- The place where a file of that path can be written. A path that ends in a slash is one of a directory. -/
def locateFile (d : Disk) (path : String) : Except FileCause String := do
  let (here, name) ← d.locateLast path
  if path.endsWith "/" then throw .isDirectory
  let place ← d.step here name
  if d.entry? place = some .directory then throw .isDirectory
  return place

def target (d : Disk) (path : String) : Except FileError String :=
  (d.locateFile path).mapError fun c => ⟨"open", path, c⟩

/-- Writes a file anew. -/
def write (d : Disk) (path : String) (content : Bytes) : Except FileError Disk := do
  return d.put (← d.target path) (.file content)

/-- Adds to the end of a file, which is created when it is missing. -/
def append (d : Disk) (path : String) (content : Bytes) : Except FileError Disk := do
  let place ← d.target path
  match d.entry? place with
  | some (.file old) => return d.put place (.file (old ++ content))
  | _ => return d.put place (.file content)

/-- A path without its last segment and the slash before it. -/
def parentText (path : String) : String :=
  String.ofList (((path.toList.reverse.dropWhile (· = '/')).dropWhile (· ≠ '/')).drop 1).reverse

def makeDir (d : Disk) (path : String) : Except FileError Disk :=
  let made : Except FileCause Disk := do
    let (here, name) ← d.locateLast path
    let place ← d.step here name
    match d.entry? place with
    | none => return d.put place .directory
    | some .directory => return d
    | some (.file _) => throw .occupied
  made.mapError fun c => ⟨"mkdir", path, c⟩

/-- The directory and those above it, as far as they are missing. Every level shortens the path. -/
def makeDirsFrom : Nat → Disk → String → Except FileError Disk
  | 0, d, path => d.makeDir path
  | fuel + 1, d, path =>
    match d.look path with
    | .ok .directory => .ok d
    | .ok (.file _) => .error ⟨"mkdir", path, .notDirectory⟩
    | .error _ => do
      let parent := parentText path
      let d ← if parent = "" then pure d else makeDirsFrom fuel d parent
      d.makeDir path

def makeDirs (d : Disk) (path : String) : Except FileError Disk := makeDirsFrom path.length d path

/-- Puts a finished file in the place of an older one. -/
def replace (d : Disk) (path : String) (content : Bytes) : Except FileError Disk :=
  match d.locate path with
  | .error c => .error ⟨"rename", path, c⟩
  | .ok place =>
    if d.entry? place = some .directory then .error ⟨"rename", path, .occupied⟩ else .ok (d.put place (.file content))

def removeAll (d : Disk) (path : String) : Disk :=
  match d.locate path with
  | .error _ => d
  | .ok place => { d with entries := d.entries.filter fun (p, _) => p ≠ place && !p.startsWith (place ++ "/") }

/-- The files below a directory, by their paths from it. -/
def filesUnder (d : Disk) (path : String) : List (String × Bytes) :=
  match d.locate path with
  | .error _ => []
  | .ok place =>
    let lead := if place = "/" then "/" else place ++ "/"
    d.entries.filterMap fun (p, e) =>
      match e with
      | .file content => if p.startsWith lead then some ((p.drop lead.length).toString, content) else none
      | .directory => none

/-- A disk that has only the directories above a working directory, and itself. -/
def ofWorkDir (workDir : String) : Disk :=
  (({} : Disk).makeDirs workDir).toOption.getD {} |> fun d => { d with workDir }

end Disk

end TreeCompiler
