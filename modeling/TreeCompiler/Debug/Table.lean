import TreeCompiler.Tree.Unit

/-!
# Debug tables

A `DebugTable` maps instruction addresses to source positions and functions.

* `lookup?` : the entry that covers an address, the last one that starts at or before it;
* `funcAt?` : the innermost function whose range holds an address;
* `position` : the position of an address as text; an entry from before the function does not count;
* `backtrace` : the frames of a call stack;
* `encode`, `decode?` : the wire form.
-/

namespace TreeCompiler

/-- The first of the positions `lo ..< hi` where `p` holds, `hi` if there is none, for a `p` that stays true once it is.
Halves the range, so for other `p` it finds the position that halving leads to. -/
def searchAux (p : Nat → Bool) : Nat → Nat → Nat → Nat
  | 0, lo, _ => lo
  | fuel + 1, lo, hi =>
    if lo < hi then
      let mid := (lo + hi) / 2
      if p mid then searchAux p fuel lo mid else searchAux p fuel (mid + 1) hi
    else lo

def searchFirst (n : Nat) (p : Nat → Bool) : Nat := searchAux p (n + 1) 0 n

/-- A source position; without a file there is none. -/
structure Pos where
  file : String := ""
  line : Nat := 0
  col : Nat := 0
deriving DecidableEq, Repr, Inhabited

namespace Pos

def render (p : Pos) : String :=
  if p.file = "" then "<no-span>" else p.file ++ ":" ++ toString p.line ++ ":" ++ toString p.col

/-- The position of a span. The empty span at the start of a file has none. -/
def ofSpan (files : FileTable) (s : Span) : Pos :=
  if s.start = 0 && s.stop = 0 then {}
  else match files.get? s.file with
    | none => {}
    | some f =>
      let start := (files.resolve s).1
      { file := f.path, line := start.line, col := start.col }

end Pos

/-- The innermost node whose code starts at `ip`. -/
structure DebugEntry where
  ip : Int := 0
  span : Span := {}
  pos : Pos := {}
deriving DecidableEq, Repr, Inhabited

/-- The code of one function body, from `start` up to `stop`. -/
structure FuncRange where
  name : String := ""
  start : Int := 0
  stop : Int := 0
  pos : Pos := {}
deriving DecidableEq, Repr, Inhabited

structure DebugTable where
  entries : Array DebugEntry := #[]
  funcs : Array FuncRange := #[]
deriving DecidableEq, Repr, Inhabited

structure BacktraceFrame where
  function : String
  pos : Pos
deriving DecidableEq, Repr, Inhabited

namespace DebugTable

def lookup? (t : DebugTable) (ip : Int) : Option DebugEntry :=
  let n := searchFirst t.entries.size fun i => match t.entries[i]? with
    | some e => ip < e.ip
    | none => true
  if n = 0 then none else t.entries[n - 1]?

def funcAt? (t : DebugTable) (ip : Int) : Option FuncRange :=
  let n := searchFirst t.funcs.size fun i => match t.funcs[i]? with
    | some f => ip < f.start
    | none => true
  (t.funcs.toList.take n).reverse.find? fun f => ip < f.stop

def position (t : DebugTable) (ip : Int) : String :=
  match t.lookup? ip with
  | none => ""
  | some e =>
    if e.pos.file = "" then ""
    else match t.funcAt? ip with
      | some f => if e.ip < f.start then "" else e.pos.render
      | none => e.pos.render

def backtrace (t : DebugTable) (ips : List Int) : List BacktraceFrame :=
  ips.map fun ip =>
    { function := ((t.funcAt? ip).map (·.name)).getD "<entry>", pos := ((t.lookup? ip).map (·.pos)).getD {} }

end DebugTable

/-! ## Wire form -/

def Pos.toWire (p : Pos) : Wire := .record [("f", .ofText p.file), ("l", .ofNat p.line), ("c", .ofNat p.col)]

def Pos.over? : Pos → Wire → Option Pos :=
  Wire.overRecord? ["f", "l", "c"] {} fun name w p =>
    match name with
    | "f" => do return { p with file := ← w.toText? }
    | "l" => do return { p with line := ← w.toNat? 32 }
    | "c" => do return { p with col := ← w.toNat? 32 }
    | _ => some p

def DebugEntry.toWire (e : DebugEntry) : Wire := .record [("ip", .int e.ip), ("s", e.span.toWire), ("p", e.pos.toWire)]

def DebugEntry.over? : DebugEntry → Wire → Option DebugEntry :=
  Wire.overRecord? ["ip", "s", "p"] {} fun name w e =>
    match name with
    | "ip" => do return { e with ip := ← w.toSigned? 64 }
    | "s" => do return { e with span := ← e.span.over? w }
    | "p" => do return { e with pos := ← e.pos.over? w }
    | _ => some e

def FuncRange.toWire (f : FuncRange) : Wire :=
  .record [("name", .ofText f.name), ("start", .int f.start), ("end", .int f.stop), ("p", f.pos.toWire)]

def FuncRange.over? : FuncRange → Wire → Option FuncRange :=
  Wire.overRecord? ["name", "start", "end", "p"] {} fun name w f =>
    match name with
    | "name" => do return { f with name := ← w.toText? }
    | "start" => do return { f with start := ← w.toSigned? 64 }
    | "end" => do return { f with stop := ← w.toSigned? 64 }
    | "p" => do return { f with pos := ← f.pos.over? w }
    | _ => some f

namespace DebugTable

def toWire (t : DebugTable) : Wire :=
  .record [("entries", .array (t.entries.toList.map DebugEntry.toWire)),
    ("funcs", .array (t.funcs.toList.map FuncRange.toWire))]

/-- A table as it is read, with the rows that it had before. -/
structure Draft where
  entries : Wire.Slots DebugEntry := {}
  funcs : Wire.Slots FuncRange := {}
deriving Inhabited

def Draft.over? : Draft → Wire → Option Draft :=
  Wire.overRecord? ["entries", "funcs"] {} fun name w t =>
    match name with
    | "entries" => do return { t with entries := ← t.entries.over? {} DebugEntry.over? w }
    | "funcs" => do return { t with funcs := ← t.funcs.over? {} FuncRange.over? w }
    | _ => some t

def Draft.table (t : Draft) : DebugTable := { entries := t.entries.rows.toArray, funcs := t.funcs.rows.toArray }

def ofWire? (w : Wire) : Option DebugTable := (Draft.over? {} w).map (·.table)

def encode (t : DebugTable) : Bytes := t.toWire.encode

def decode? (bs : Bytes) : Option DebugTable := do
  let (w, _) ← Wire.decode? bs
  ofWire? w

end DebugTable

end TreeCompiler
