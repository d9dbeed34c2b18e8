/-!
# Slash-separated paths

Paths are handled by their text alone; no file system is consulted.

* `clean` : the shortest equivalent spelling (no empty, `.` or inner `..` segments);
* `base`, `dir`, `ext`, `join` : last segment, what stands before it, its extension, and joining;
* `relative?` : the path from one place to another.
-/

namespace TreeCompiler.Path

def isAbs (p : String) : Bool := p.startsWith "/"

/-- Segments that remain after `.` and `..` are worked off, in reverse order. -/
def foldSegments (rooted : Bool) (segs : List String) : List String :=
  segs.foldl (fun acc seg =>
    if seg = "" || seg = "." then acc
    else if seg = ".." then
      match acc with
      | [] => if rooted then [] else [".."]
      | top :: rest => if top = ".." then ".." :: acc else rest
    else seg :: acc) []

def clean (p : String) : String :=
  let rooted := isAbs p
  let body := String.intercalate "/" (foldSegments rooted (p.splitOn "/")).reverse
  if rooted then "/" ++ body else if body = "" then "." else body

def join (parts : List String) : String :=
  let kept := parts.dropWhile (· = "")
  if kept.isEmpty then "" else clean (String.intercalate "/" (kept.filter (· ≠ "")))

/-- The characters after the last slash, and those up to and including it. -/
def splitLast (p : String) : String × String :=
  let back := p.toList.reverse
  (String.ofList (back.dropWhile (· ≠ '/')).reverse, String.ofList (back.takeWhile (· ≠ '/')).reverse)

def base (p : String) : String :=
  if p = "" then "." else
    let trimmed := String.ofList (p.toList.reverse.dropWhile (· = '/')).reverse
    if trimmed = "" then "/" else (splitLast trimmed).2

def dir (p : String) : String := clean (splitLast p).1

/-- The last segment from its last dot on, or nothing. -/
def ext (p : String) : String :=
  let name := (splitLast p).2.toList.reverse
  if name.contains '.' then String.ofList ('.' :: (name.takeWhile (· ≠ '.')).reverse) else ""

def trimEnd (p tail : String) : String :=
  if tail.length ≤ p.length && p.endsWith tail then (p.take (p.length - tail.length)).toString else p

/-- A path made absolute against a working directory. -/
def absolute (cwd p : String) : String := if isAbs p then clean p else join [cwd, p]

def segments (p : String) : List String := (p.splitOn "/").filter (· ≠ "")

def dropCommon : List String → List String → List String × List String
  | a :: as, b :: bs => if a = b then dropCommon as bs else (a :: as, b :: bs)
  | as, bs => (as, bs)

/-- The path that leads from `here` to `there`; none when one is rooted and the other is not, or when `here` climbs
above the common part. -/
def relative? (here there : String) : Option String :=
  let b := clean here
  let t := clean there
  if b = t then some "." else
    let b' := if b = "." then "" else b
    if isAbs b' ≠ isAbs t then none else
      let (ups, downs) := dropCommon (segments b') (segments t)
      if ups.head? = some ".." then none
      else some (String.intercalate "/" (ups.map (fun _ => "..") ++ downs))

end TreeCompiler.Path
