import TreeCompiler.Diagnostic.Pretty

/-!
# Version information

`Release` is the version of the tool with what is known of its build.
-/

namespace TreeCompiler

structure Release where
  major : String := "0"
  minor : String := "3"
  patch : String := "0"
  pre : String := "dev"
  commit : String := ""
  date : String := ""
deriving DecidableEq, Repr, Inhabited

namespace Release

/-- The label behind the numbers. -/
def tail (r : Release) : String := if r.pre = "" then "" else "-" ++ r.pre

def text (r : Release) : String := r.major ++ "." ++ r.minor ++ "." ++ r.patch ++ r.tail

def colored (r : Release) : String :=
  Style.boldYellow.paint true r.major ++ "." ++ Style.boldGreen.paint true r.minor ++ "." ++
    Style.boldBlue.paint true r.patch ++ r.tail

/-- The lines of the version banner. -/
def banner (r : Release) (color : Bool) : String :=
  "loomc " ++ (if color then r.colored else r.text) ++ "\n" ++
    (if r.commit = "" then "" else "commit: " ++ r.commit ++ "\n") ++
    (if r.date = "" then "" else "built:  " ++ r.date ++ "\n")

end Release

end TreeCompiler
