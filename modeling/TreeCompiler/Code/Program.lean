import TreeCompiler.Code.Instr
import TreeCompiler.Wire.Record

/-!
# Programs

* `Program` : an instruction stream with its tables;
* `Program.validate` : every table reference and jump target is in range; the type table is not consulted;
* `Program.encode`, `Program.decode` : the wire form. Decoding validates.
-/

namespace TreeCompiler

/-- One function body. `frame` counts the slots reserved below the arguments. -/
structure FuncRow where
  name : String := ""
  entry : Int := 0
  params : Int := 0
  captures : Int := 0
  frame : Int := 0
deriving DecidableEq, Repr, Inhabited

structure NativeRow where
  library : String := ""
  symbol : String := ""
  handle : Nat := 0
deriving DecidableEq, Repr, Inhabited

/-- A struct or union shape with the names of its fields or variants. -/
structure TypeRow where
  name : String := ""
  kind : String := ""
  fields : List String := []
deriving DecidableEq, Repr, Inhabited

def programVersion : Int := 1

structure Program where
  version : Int := programVersion
  code : Array Instr := #[]
  strings : Array String := #[]
  funcs : Array FuncRow := #[]
  natives : Array NativeRow := #[]
  types : Array TypeRow := #[]
  globals : Nat := 0
  entry : Int := 0
deriving DecidableEq, Repr, Inhabited

inductive ProgramError
  | malformed
  | version (found : Int)
  | invalidOpcode (ip number : Nat)
  | unresolvedLabel (ip : Nat)
  | outOfRange (ip : Nat) (operand : Operand)
  | entryOutOfRange (entry : Int)
deriving DecidableEq, Repr, Inhabited

namespace ProgramError

def message : ProgramError → String
  | malformed => "malformed"
  | version n => "unsupported program version: " ++ toString n
  | invalidOpcode ip n => "instruction " ++ toString ip ++ ": invalid opcode " ++ toString n
  | unresolvedLabel ip => "instruction " ++ toString ip ++ ": unresolved label"
  | outOfRange ip o => "instruction " ++ toString ip ++ ": " ++ o.render ++ " out of range"
  | entryOutOfRange e => "entry " ++ toString e ++ " out of range"

/-- The message of an error that stopped a reader. -/
def readMessage : ProgramError → String
  | version n => message (version n)
  | e => "decode program: " ++ e.message

end ProgramError

namespace Program

/-- The size of the table that an operand of that kind refers to. -/
def limit? (p : Program) : OperandKind → Option Nat
  | .address => some p.code.size
  | .text => some p.strings.size
  | .func => some p.funcs.size
  | .native => some p.natives.size
  | .global => some p.globals
  | _ => none

def validateOperand (p : Program) (ip : Nat) (o : Operand) : Except ProgramError Unit :=
  if o.kind = .label then .error (.unresolvedLabel ip)
  else match p.limit? o.kind with
    | some limit => if o.val < 0 || (limit : Int) ≤ o.val then .error (.outOfRange ip o) else .ok ()
    | none => .ok ()

def validateInstr (p : Program) (ip : Nat) (i : Instr) : Except ProgramError Unit :=
  if !i.op.isKnown then .error (.invalidOpcode ip i.op.number) else i.operands.forM (p.validateOperand ip)

def validate (p : Program) : Except ProgramError Unit := do
  p.code.toList.zipIdx.forM fun (i, ip) => p.validateInstr ip i
  if p.entry < 0 || (p.code.size : Int) < p.entry then throw (.entryOutOfRange p.entry)

end Program

/-! ## Wire form -/

def Operand.toWire (o : Operand) : Wire :=
  .record ([("k", Wire.ofNat o.kind.number)] ++ Wire.unlessEmpty "v" (o.val = 0) (.int o.val))

def Operand.over? : Operand → Wire → Option Operand :=
  Wire.overRecord? ["k", "v"] {} fun name w o =>
    match name with
    | "k" => do return { o with kind := .ofNumber (← w.toNat? 8) }
    | "v" => do return { o with val := ← w.toSigned? 64 }
    | _ => some o

def Instr.toWire (i : Instr) : Wire :=
  .record [("op", .ofNat i.op.number), ("a", i.a.toWire), ("b", i.b.toWire), ("c", i.c.toWire)]

def Instr.over? : Instr → Wire → Option Instr :=
  Wire.overRecord? ["op", "a", "b", "c"] { op := .nop } fun name w i =>
    match name with
    | "op" => do return { i with op := .ofNumber (← w.toNat? 8) }
    | "a" => do return { i with a := ← i.a.over? w }
    | "b" => do return { i with b := ← i.b.over? w }
    | "c" => do return { i with c := ← i.c.over? w }
    | _ => some i

def FuncRow.toWire (f : FuncRow) : Wire :=
  .record [("name", .ofText f.name), ("entry", .int f.entry), ("params", .int f.params),
    ("captures", .int f.captures), ("frame", .int f.frame)]

def FuncRow.over? : FuncRow → Wire → Option FuncRow :=
  Wire.overRecord? ["name", "entry", "params", "captures", "frame"] {} fun name w f =>
    match name with
    | "name" => do return { f with name := ← w.toText? }
    | "entry" => do return { f with entry := ← w.toSigned? 64 }
    | "params" => do return { f with params := ← w.toSigned? 64 }
    | "captures" => do return { f with captures := ← w.toSigned? 64 }
    | "frame" => do return { f with frame := ← w.toSigned? 64 }
    | _ => some f

def NativeRow.toWire (n : NativeRow) : Wire :=
  .record [("lib", .ofText n.library), ("sym", .ofText n.symbol), ("handle", .ofNat n.handle)]

def NativeRow.over? : NativeRow → Wire → Option NativeRow :=
  Wire.overRecord? ["lib", "sym", "handle"] {} fun name w n =>
    match name with
    | "lib" => do return { n with library := ← w.toText? }
    | "sym" => do return { n with symbol := ← w.toText? }
    | "handle" => do return { n with handle := ← w.toNat? 64 }
    | _ => some n

def TypeRow.toWire (t : TypeRow) : Wire :=
  .record ([("name", Wire.ofText t.name), ("kind", Wire.ofText t.kind)] ++
    Wire.unlessEmpty "fields" t.fields.isEmpty (.ofTexts t.fields))

def TypeRow.over? : TypeRow → Wire → Option TypeRow :=
  Wire.overRecord? ["name", "kind", "fields"] {} fun name w t =>
    match name with
    | "name" => do return { t with name := ← w.toText? }
    | "kind" => do return { t with kind := ← w.toText? }
    | "fields" => do return { t with fields := ← Wire.overTexts? t.fields w }
    | _ => some t

namespace Program

/-- The tables of an assembled program that are written as lists even when they are empty. -/
def keptTables : List String := ["code", "funcs"]

/-- An empty table is written as nil unless it is one of those kept. -/
def toWire (p : Program) (kept : List String := keptTables) : Wire :=
  let table (name : String) (rows : List Wire) : String × Wire :=
    (name, if rows.isEmpty && !kept.contains name then .nil else .array rows)
  .record [("version", .int p.version), table "code" (p.code.toList.map Instr.toWire),
    table "strings" (p.strings.toList.map Wire.ofText), table "funcs" (p.funcs.toList.map FuncRow.toWire),
    table "natives" (p.natives.toList.map NativeRow.toWire), table "types" (p.types.toList.map TypeRow.toWire),
    ("globals", .ofNat p.globals), ("entry", .int p.entry)]

/-- A program as it is read, with the rows that its tables had before. -/
structure Draft where
  version : Int := 0
  code : Wire.Slots Instr := {}
  strings : List String := []
  funcs : Wire.Slots FuncRow := {}
  natives : Wire.Slots NativeRow := {}
  types : Wire.Slots TypeRow := {}
  globals : Nat := 0
  entry : Int := 0
deriving Inhabited

namespace Draft

def fieldNames : List String := ["version", "code", "strings", "funcs", "natives", "types", "globals", "entry"]

def setField (name : String) (w : Wire) (p : Draft) : Option Draft :=
  match name with
  | "version" => do return { p with version := ← w.toSigned? 64 }
  | "code" => do return { p with code := ← p.code.over? { op := .nop } Instr.over? w }
  | "strings" => do return { p with strings := ← Wire.overTexts? p.strings w }
  | "funcs" => do return { p with funcs := ← p.funcs.over? {} FuncRow.over? w }
  | "natives" => do return { p with natives := ← p.natives.over? {} NativeRow.over? w }
  | "types" => do return { p with types := ← p.types.over? {} TypeRow.over? w }
  | "globals" => do return { p with globals := ← w.toNat? 32 }
  | "entry" => do return { p with entry := ← w.toSigned? 64 }
  | _ => some p

def over? : Draft → Wire → Option Draft := Wire.overRecord? fieldNames {} setField

def program (p : Draft) : Program :=
  { version := p.version, code := p.code.rows.toArray, strings := p.strings.toArray, funcs := p.funcs.rows.toArray
    natives := p.natives.rows.toArray, types := p.types.rows.toArray, globals := p.globals, entry := p.entry }

end Draft

def ofWire? (w : Wire) : Option Program := (Draft.over? {} w).map (·.program)

/-- Checks a program that was read: its version first, then its references. -/
def checked (p : Program) : Except ProgramError Program := do
  if p.version ≠ programVersion then throw (.version p.version)
  p.validate
  return p

def encode (p : Program) (kept : List String := keptTables) : Bytes := (p.toWire kept).encode

def decode (bs : Bytes) : Except ProgramError Program := do
  let some (w, _) := Wire.decode? bs | throw .malformed
  let some p := ofWire? w | throw .malformed
  p.checked

end Program

end TreeCompiler
