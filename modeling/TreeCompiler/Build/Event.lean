/-!
# Stages of a build

`Stage` is how far the work on a unit has come, `Status` how it stands there.
-/

namespace TreeCompiler

inductive Stage
  | load
  | analyze
  | emit
  | write
deriving DecidableEq, Repr, Inhabited

namespace Stage

def name : Stage → String
  | load => "load"
  | analyze => "analyze"
  | emit => "emit"
  | write => "write"

def ofName? : String → Option Stage
  | "load" => some load
  | "analyze" => some analyze
  | "emit" => some emit
  | "write" => some write
  | _ => none

end Stage

inductive Status
  | queued
  | working
  | done
  | cached
  | error
deriving DecidableEq, Repr, Inhabited

namespace Status

def name : Status → String
  | queued => "queued"
  | working => "working"
  | done => "done"
  | cached => "cached"
  | error => "error"

def ofName? : String → Option Status
  | "queued" => some queued
  | "working" => some working
  | "done" => some done
  | "cached" => some cached
  | "error" => some error
  | _ => none

end Status

end TreeCompiler
