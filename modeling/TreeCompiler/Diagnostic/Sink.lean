import TreeCompiler.Diagnostic.Bag

/-!
# Where reports go

`Sink` is the receiving end of the analysis. Reports are held in the innermost open buffer; a buffer that is committed
hands its reports to the one around it, a discarded one drops them. What leaves the outermost buffer reaches the user
once for each identity; `delivered` is that sequence.

* `report`, `openBuffer`, `commit`, `discard` : the four steps;
* `heldErrors` : whether the innermost buffer holds an error;
* `history` : every report that was made, wherever it went.
-/

namespace TreeCompiler

/-- A report at the moment it is made, with the number of buffers that are open then. -/
structure Reported where
  depth : Nat
  diagnostic : Diagnostic
deriving DecidableEq, Repr, Inhabited

structure Sink where
  delivered : List Diagnostic := []
  suppressed : Nat := 0
  held : List (List Diagnostic) := []
  dedup : Bool := true
  history : List Reported := []
deriving Inhabited

namespace Sink

/-- A report that leaves the outermost buffer. -/
def deliver (s : Sink) (d : Diagnostic) : Sink :=
  if s.dedup && s.delivered.any (fun e => e.identity == d.identity) then { s with suppressed := s.suppressed + 1 }
  else { s with delivered := s.delivered ++ [d] }

/-- Hands a report to the innermost open buffer, or out when none is open. -/
def pass (s : Sink) (d : Diagnostic) : Sink :=
  match s.held with
  | [] => s.deliver d
  | buffer :: rest => { s with held := (buffer ++ [d]) :: rest }

def record (s : Sink) (depth : Nat) (d : Diagnostic) : Sink :=
  { s with history := s.history ++ [{ depth, diagnostic := d }] }

def report (s : Sink) (d : Diagnostic) : Sink := (s.record s.held.length d).pass d

/-- A report through a buffer that is closed already: it goes to the buffer around that one, the `level`-th from
outside, or out when `level` is 0. -/
def reportLate (s : Sink) (level : Nat) (d : Diagnostic) : Sink :=
  let s := s.record level d
  if level = 0 then s.deliver d else { s with held := s.held.modify (s.held.length - level) (· ++ [d]) }

def openBuffer (s : Sink) : Sink := { s with held := [] :: s.held }

def heldItems (s : Sink) : List Diagnostic := s.held.headD []

def heldErrors (s : Sink) : Bool := s.heldItems.any (·.blocks)

/-- Closes the innermost buffer and passes its reports on, in order. -/
def commit (s : Sink) : Sink := s.heldItems.foldl pass { s with held := s.held.tail }

/-- Closes the innermost buffer and drops its reports. -/
def discard (s : Sink) : Sink := { s with held := s.held.tail }

def depth (s : Sink) : Nat := s.held.length

def errorCount (s : Sink) : Nat := (s.delivered.filter (·.blocks)).length

end Sink

end TreeCompiler
