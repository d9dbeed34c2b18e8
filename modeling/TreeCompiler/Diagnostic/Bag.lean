import TreeCompiler.Source.File
import TreeCompiler.Diagnostic.Code

/-!
# Diagnostics and the bag that keeps them

* `Diagnostic` : one finding with its notes; two are the same report when `identity` agrees, whatever their notes;
* `Bag` : the findings of a unit up to a limit; what comes after the limit is only counted, and counts as errors;
* `Bag.sort` : by file, start, end, falling severity and code; equal ones keep their order.
-/

namespace TreeCompiler

structure Note where
  span : Span
  text : String
deriving DecidableEq, Repr, Inhabited

structure Diagnostic where
  severity : Severity
  code : Code
  message : String
  span : Span
  notes : List Note := []
deriving DecidableEq, Repr, Inhabited

namespace Diagnostic

/-- What makes two diagnostics the same report. -/
def identity (d : Diagnostic) : Code × Severity × Span × String := (d.code, d.severity, d.span, d.message)

def blocks (d : Diagnostic) : Bool := d.severity.blocks

/-- The order of a listing. -/
def le (x y : Diagnostic) : Bool :=
  match compareOfLessAndEq x.span.file y.span.file, compareOfLessAndEq x.span.start y.span.start,
    compareOfLessAndEq x.span.stop y.span.stop, compareOfLessAndEq y.severity.rank x.severity.rank with
  | .lt, _, _, _ => true
  | .gt, _, _, _ => false
  | .eq, .lt, _, _ => true
  | .eq, .gt, _, _ => false
  | .eq, .eq, .lt, _ => true
  | .eq, .eq, .gt, _ => false
  | .eq, .eq, .eq, .lt => true
  | .eq, .eq, .eq, .gt => false
  | .eq, .eq, .eq, .eq => x.code.number ≤ y.code.number

end Diagnostic

structure Bag where
  items : List Diagnostic := []
  limit : Nat := 100
  dropped : Nat := 0
deriving Inhabited

namespace Bag

/-- A bag for at most `limit` findings; a limit that is not positive stands for 100. -/
def ofLimit (limit : Int) : Bag := { limit := if limit ≤ 0 then 100 else limit.toNat }

def add (b : Bag) (d : Diagnostic) : Bag :=
  if b.items.length = b.limit then { b with dropped := b.dropped + 1 } else { b with items := b.items ++ [d] }

def addAll (b : Bag) (ds : List Diagnostic) : Bag := ds.foldl add b

/-- Whether a finding would still be kept. -/
def hasRoom (b : Bag) : Bool := b.items.length ≠ b.limit

def errors (b : Bag) : Nat := b.dropped + (b.items.filter (·.blocks)).length

def warnings (b : Bag) : Nat := (b.items.filter fun d => !d.blocks && d.severity = .warning).length

def hasErrors (b : Bag) : Bool := 0 < b.errors

def sort (b : Bag) : Bag := { b with items := b.items.mergeSort Diagnostic.le }

end Bag

end TreeCompiler
