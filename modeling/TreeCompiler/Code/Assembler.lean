import TreeCompiler.Code.Program

/-!
# Assembling a program

`Assembler` accumulates the instruction stream and the tables of one program. Jumps refer to labels, which `finish`
resolves to addresses.

* `emit`, `bindLabel`, `patch` : growing the stream; a label is bound once;
* `mark`, `rewind` : a position to return to. What was emitted and bound after it is dropped, the tables keep what they
  have;
* `addString`, `addType` : interned rows. Types are told apart by name and kind alone.
-/

namespace TreeCompiler

abbrev Label := Nat

structure AsmMark where
  ip : Nat
  bound : Nat
deriving DecidableEq, Repr, Inhabited

/-- A function row with the label of its entry. -/
structure AsmFunc where
  row : FuncRow
  entry : Label
deriving DecidableEq, Repr, Inhabited

structure Assembler where
  code : Array Instr := #[]
  labels : Array (Option Nat) := #[]
  bound : Array Label := #[]
  strings : Array String := #[]
  funcs : Array AsmFunc := #[]
  natives : Array NativeRow := #[]
  types : Array TypeRow := #[]
  globals : Nat := 0
deriving Inhabited

/-- Misuse of the assembler. -/
inductive AsmMisuse
  | boundTwice (l : Label)
  | patchOf (op : Opcode) (ip : Nat)
  | tooManyOperands (op : Opcode)
  | outOfRange (index size : Nat)
deriving DecidableEq, Repr, Inhabited

namespace AsmMisuse

def message : AsmMisuse → String
  | boundTwice l => "bytecode: label L" ++ toString l ++ " bound twice"
  | patchOf op ip => "bytecode: patch of " ++ op.name ++ " at " ++ toString ip
  | tooManyOperands op => "bytecode: " ++ op.name ++ " takes at most 3 operands"
  | outOfRange i n => "runtime error: index out of range [" ++ toString i ++ "] with length " ++ toString n

end AsmMisuse

/-- What keeps a program from being finished. -/
inductive AsmError
  | unboundJump (ip : Nat) (label : Int)
  | noBody (function : String)
  | unboundEntry (l : Label)
deriving DecidableEq, Repr, Inhabited

namespace AsmError

def message : AsmError → String
  | unboundJump ip l => "instruction " ++ toString ip ++ " jumps to unbound label L" ++ toString l
  | noBody f => "function " ++ f ++ " has no body"
  | unboundEntry l => "entry label L" ++ toString l ++ " is unbound"

end AsmError

namespace Assembler

/-- The address of the next instruction. -/
def pos (a : Assembler) : Nat := a.code.size

def emit (a : Assembler) (i : Instr) : Assembler := { a with code := a.code.push i }

def emitOperands (a : Assembler) (op : Opcode) (args : List Operand) : Except AsmMisuse Assembler :=
  match Instr.ofOperands? op args with
  | some i => .ok (a.emit i)
  | none => .error (.tooManyOperands op)

def newLabel (a : Assembler) : Label × Assembler := (a.labels.size, { a with labels := a.labels.push none })

/-- The address a label is bound to. -/
def address? (a : Assembler) (l : Label) : Option Nat := (a.labels[l]?).join

/-- Places a label at the next instruction. -/
def bindLabel (a : Assembler) (l : Label) : Except AsmMisuse Assembler :=
  if a.labels.size ≤ l then .error (.outOfRange l a.labels.size)
  else if (a.address? l).isSome then .error (.boundTwice l)
  else .ok { a with labels := a.labels.setIfInBounds l (some a.pos), bound := a.bound.push l }

def mark (a : Assembler) : AsmMark := { ip := a.pos, bound := a.bound.size }

def rewind (a : Assembler) (m : AsmMark) : Assembler :=
  { a with
    code := a.code.take m.ip
    labels := (a.bound.toList.drop m.bound).foldl (fun ls l => ls.setIfInBounds l none) a.labels
    bound := a.bound.take m.bound }

/-- Emits a frame reservation whose size is patched once it is known. -/
def reserve (a : Assembler) : Assembler := a.emit { op := .reserve, a := .int 0 }

def patch (a : Assembler) (ip : Nat) (slots : Int) : Except AsmMisuse Assembler :=
  match a.code[ip]? with
  | none => .error (.outOfRange ip a.code.size)
  | some i =>
    if i.op = .reserve then .ok { a with code := a.code.setIfInBounds ip { i with a := .int slots } }
    else .error (.patchOf i.op ip)

def addString (a : Assembler) (s : String) : Operand × Assembler :=
  match a.strings.findIdx? (· == s) with
  | some i => (.text i, a)
  | none => (.text a.strings.size, { a with strings := a.strings.push s })

/-- Adds a function row; its entry is bound when the body is emitted. -/
def declareFunc (a : Assembler) (name : String) (params : Int) : Nat × Label × Assembler :=
  let (l, a) := a.newLabel
  (a.funcs.size, l, { a with funcs := a.funcs.push { row := { name, params }, entry := l } })

def setFrame (a : Assembler) (index : Nat) (frame captures : Int) : Assembler :=
  { a with funcs := a.funcs.modify index fun f => { f with row := { f.row with frame, captures } } }

def addNative (a : Assembler) (n : NativeRow) : Nat × Assembler :=
  (a.natives.size, { a with natives := a.natives.push n })

def typeKey (t : TypeRow) : String := t.name ++ "|" ++ t.kind

def addType (a : Assembler) (t : TypeRow) : Nat × Assembler :=
  match a.types.findIdx? (fun u => typeKey u == typeKey t) with
  | some i => (i, a)
  | none => (a.types.size, { a with types := a.types.push t })

def setGlobals (a : Assembler) (n : Nat) : Assembler := { a with globals := n }

def resolveOperand (a : Assembler) (ip : Nat) (o : Operand) : Except AsmError Operand :=
  if o.kind ≠ .label then .ok o
  else match a.address? o.val.toNat with
    | some at' => .ok (.address at')
    | none => .error (.unboundJump ip o.val)

def resolveFunc (a : Assembler) (f : AsmFunc) : Except AsmError FuncRow :=
  match a.address? f.entry with
  | some ip => .ok { f.row with entry := ip }
  | none => .error (.noBody f.row.name)

/-- Resolves labels; `entry` labels the first instruction of the top-level code. -/
def finish (a : Assembler) (entry : Label) : Except AsmError Program := do
  let code ← a.code.toList.zipIdx.mapM fun (i, ip) => i.mapOperands (a.resolveOperand ip)
  let funcs ← a.funcs.toList.mapM a.resolveFunc
  match a.address? entry with
  | none => throw (.unboundEntry entry)
  | some ip =>
    return { code := code.toArray, strings := a.strings, funcs := funcs.toArray, natives := a.natives, types := a.types,
             globals := a.globals, entry := ip }

end Assembler

end TreeCompiler
