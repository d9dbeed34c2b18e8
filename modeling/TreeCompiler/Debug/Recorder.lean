import TreeCompiler.Debug.Table

/-!
# Recording debug information

A `Recorder` is told about every node and function while code is emitted, in the order of addresses. Of several nodes at
one address the last counts, and a node whose span repeats the one before adds nothing. `truncate` forgets what a rewind
of the code dropped.
-/

namespace TreeCompiler

/-- A function range that may still be open; then `stop` is -1. -/
structure RangeDraft where
  name : String
  start : Int
  stop : Int := -1
  span : Span := {}
deriving DecidableEq, Repr, Inhabited

/-- A node whose code starts at `ip`. -/
structure Noted where
  ip : Int
  span : Span
deriving DecidableEq, Repr, Inhabited

structure Recorder where
  entries : Array DebugEntry := #[]
  funcs : Array RangeDraft := #[]
  openRanges : List Nat := []
deriving Inhabited

namespace Recorder

/-- The code of the node at `span` starts at `ip`. -/
def node (r : Recorder) (ip : Int) (span : Span) : Recorder :=
  if span.isEmpty && span.file = 0 then r
  else match r.entries.back? with
    | some last =>
      if last.ip = ip then { r with entries := r.entries.pop.push { last with span } }
      else if last.span = span then r
      else { r with entries := r.entries.push { ip, span } }
    | none => { r with entries := #[{ ip, span }] }

def beginFunc (r : Recorder) (name : String) (ip : Int) (span : Span) : Recorder :=
  { r with openRanges := r.funcs.size :: r.openRanges, funcs := r.funcs.push { name, start := ip, span } }

/-- Closes the innermost open function; none when there is none. -/
def endFunc? (r : Recorder) (ip : Int) : Option Recorder :=
  match r.openRanges with
  | [] => none
  | i :: rest => some { r with openRanges := rest, funcs := r.funcs.modify i fun f => { f with stop := ip } }

/-- Drops the functions at the end that start at or after `ip`. -/
def dropFuncs (ip : Int) : Nat → Recorder → Recorder
  | 0, r => r
  | fuel + 1, r =>
    match r.funcs.back? with
    | none => r
    | some f =>
      if f.start < ip then r
      else
        let last := r.funcs.size - 1
        dropFuncs ip fuel
          { r with
            funcs := r.funcs.pop
            openRanges := if r.openRanges.head? = some last then r.openRanges.tail else r.openRanges }

/-- Forgets every entry and function at or after `ip`. -/
def truncate (r : Recorder) (ip : Int) : Recorder :=
  let n := searchFirst r.entries.size fun i => match r.entries[i]? with
    | some e => ip ≤ e.ip
    | none => true
  dropFuncs ip r.funcs.size { r with entries := r.entries.take n }

/-- Resolves every span; functions that are still open end at `stop`. Functions are put in the order of their start. -/
def finish (r : Recorder) (files : FileTable) (stop : Int) : DebugTable :=
  let close (f : RangeDraft) : FuncRange :=
    { name := f.name, start := f.start, stop := if f.stop < 0 then stop else f.stop, pos := Pos.ofSpan files f.span }
  { entries := r.entries.map fun e => { e with pos := Pos.ofSpan files e.span }
    funcs := ((r.funcs.toList.map close).mergeSort fun a b => a.start ≤ b.start).toArray }

end Recorder

end TreeCompiler
