import TreeCompiler.Trace.Event

/-!
# Tracers

* `Ring` : the newest events up to a capacity; once full, a new event takes the place of the oldest;
* `Tracer` : a level and where admitted events go, a stream, a ring or both; it also numbers events and spans;
* `OpenSpan` : a span that has begun; `Tracer.start`, `Tracer.close` and `Tracer.point` emit its events. A span that
  the level does not admit is inert.
-/

namespace TreeCompiler

structure Ring where
  capacity : Nat
  events : Array TraceEvent := #[]
  total : Nat := 0
deriving Inhabited

namespace Ring

/-- A ring for `capacity` events, 4096 when the capacity is not positive. -/
def ofCapacity (capacity : Int) : Ring := { capacity := if capacity ≤ 0 then 4096 else capacity.toNat }

def push (r : Ring) (ev : TraceEvent) : Ring :=
  if r.events.size < r.capacity then { r with events := r.events.push ev, total := r.total + 1 }
  else { r with events := r.events.setIfInBounds (r.total % r.capacity) ev, total := r.total + 1 }

/-- How many events have been overwritten. -/
def dropped (r : Ring) : Nat := r.total - r.events.size

/-- The stored events, oldest first: the oldest stands where the next one would be written. -/
def snapshot (r : Ring) : List TraceEvent :=
  if r.events.size < r.capacity then r.events.toList
  else
    let oldest := r.total % r.capacity
    r.events.toList.drop oldest ++ r.events.toList.take oldest

end Ring

inductive StorageMode
  | stream
  | ring
  | both
deriving DecidableEq, Repr, Inhabited

namespace StorageMode

def name : StorageMode → String
  | stream => "stream"
  | ring => "ring"
  | both => "both"

/-- Reads a mode; the empty word is `ring`. -/
def parse (s : String) : Except String StorageMode :=
  match settingWord s with
  | "" | "ring" => .ok ring
  | "stream" => .ok stream
  | "both" => .ok both
  | w => .error ("invalid storage mode: " ++ quote w ++ " (expected: stream|ring|both)")

end StorageMode

structure Tracer where
  level : TraceLevel := .off
  mode : StorageMode := .ring
  ring : Ring := { capacity := 4096 }
  streamed : List TraceEvent := []
  nextSeq : Nat := 1
  nextSpan : Nat := 1
deriving Inhabited

structure OpenSpan where
  id : Nat := 0
  parent : Nat := 0
  scope : Nat := 0
  name : String := ""
  extra : List (String × String) := []
deriving Inhabited

namespace OpenSpan

def isLive (s : OpenSpan) : Bool := s.id ≠ 0

/-- Attaches a pair that is reported with the end of the span. -/
def withExtra (s : OpenSpan) (key value : String) : OpenSpan :=
  if s.isLive then { s with extra := putPair s.extra key value } else s

end OpenSpan

namespace Tracer

def isEnabled (t : Tracer) : Bool := t.level ≠ .off

def admits (t : Tracer) (scope : Nat) : Bool := t.level.admits scope

def toStream (t : Tracer) (ev : TraceEvent) : Tracer :=
  { t with streamed := t.streamed ++ [{ ev with seq := t.nextSeq }], nextSeq := t.nextSeq + 1 }

def toRing (t : Tracer) (ev : TraceEvent) : Tracer :=
  { t with ring := t.ring.push { ev with seq := t.nextSeq }, nextSeq := t.nextSeq + 1 }

def emit (t : Tracer) (ev : TraceEvent) : Tracer :=
  if !t.admits ev.scope then t
  else match t.mode with
    | .stream => t.toStream ev
    | .ring => t.toRing ev
    | .both => (t.toStream ev).toRing ev

/-- Opens a span under `parent` and emits its begin event. -/
def start (t : Tracer) (scope : Nat) (name : String) (parent : Nat) : OpenSpan × Tracer :=
  if !t.admits scope then ({}, t)
  else
    let t' := { t with nextSpan := t.nextSpan + 1 }
    ({ id := t.nextSpan, parent, scope, name },
      t'.emit { kind := .begin, scope, span := t.nextSpan, parent, name })

/-- Emits the end event of a span. -/
def close (t : Tracer) (s : OpenSpan) (detail : String) : Tracer :=
  if !s.isLive then t
  else t.emit { kind := .finish, scope := s.scope, span := s.id, parent := s.parent, name := s.name, detail,
                extra := s.extra }

/-- Attaches a pair to a span. If the span has ended already and its end came with pairs, the stored end event shows the
new one too. -/
def attach (t : Tracer) (s : OpenSpan) (key value : String) : OpenSpan × Tracer :=
  let update (ev : TraceEvent) : TraceEvent :=
    if s.isLive && ev.span = s.id && ev.kind = .finish && !ev.extra.isEmpty then
      { ev with extra := putPair ev.extra key value }
    else ev
  (s.withExtra key value, { t with ring := { t.ring with events := t.ring.events.map update } })

/-- Emits an instant event. -/
def point (t : Tracer) (scope : Nat) (name detail : String) (parent : Nat) : Tracer :=
  if !t.admits scope then t
  else
    let t' := { t with nextSpan := t.nextSpan + 1 }
    t'.emit { kind := .point, scope, span := t.nextSpan, parent, name, detail }

end Tracer

end TreeCompiler
