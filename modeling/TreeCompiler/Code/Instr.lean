import TreeCompiler.Code.Opcode
import TreeCompiler.Number.Shortest
import TreeCompiler.Scope.Symbol

/-!
# Operands and instructions

An `Operand` is a kind and a number; what the number means depends on the kind: an immediate, a slot, a register or an
index into a table of the program. An `Instr` has three operands, unused ones being `Operand.none`.
-/

namespace TreeCompiler

inductive OperandKind
  | none
  | int
  | real
  | bool
  | text
  | global
  | stack
  | value
  | ref
  | accumulator
  | returned
  | spreadCount
  | label
  | address
  | func
  | native
  | type
  | other (code : Nat)
deriving DecidableEq, Repr, Inhabited

namespace OperandKind

def all : List OperandKind :=
  [none, int, real, bool, text, global, stack, value, ref, accumulator, returned, spreadCount, label, address, func,
   native, type]

def ofNumber (n : Nat) : OperandKind := (all[n]?).getD (other n)

def number : OperandKind → Nat
  | other n => n
  | k => k.ctorIdx

end OperandKind

structure Operand where
  kind : OperandKind := .none
  val : Int := 0
deriving DecidableEq, Repr, Inhabited

namespace Operand

def none : Operand := {}
def accumulator : Operand := { kind := .accumulator }
def returned : Operand := { kind := .returned }
def spreadCount : Operand := { kind := .spreadCount }
def int (n : Int) : Operand := { kind := .int, val := n }
/-- A real keeps its bits, read as a signed number. -/
def real (bits : UInt64) : Operand := { kind := .real, val := bits.toInt64.toInt }
def bool (b : Bool) : Operand := { kind := .bool, val := if b then 1 else 0 }
def text (index : Nat) : Operand := { kind := .text, val := index }
def global (slot : Int) : Operand := { kind := .global, val := slot }
def stack (offset : Int) : Operand := { kind := .stack, val := offset }
def label (l : Nat) : Operand := { kind := .label, val := l }
def address (ip : Nat) : Operand := { kind := .address, val := ip }
def func (index : Nat) : Operand := { kind := .func, val := index }
def native (index : Nat) : Operand := { kind := .native, val := index }
def type (index : Nat) : Operand := { kind := .type, val := index }

def isImmediate (o : Operand) : Bool :=
  match o.kind with
  | .int | .real | .bool | .text => true
  | _ => false

def isRegister (o : Operand) : Bool :=
  match o.kind with
  | .value | .ref | .accumulator | .returned | .spreadCount => true
  | _ => false

/-- Whether the operand is the storage of a variable. -/
def isVariable (o : Operand) : Bool := o.kind = .global || o.kind = .stack

/-- Reals are positional from a ten-thousandth up to a million. -/
def realLayout : Number.Layout := { least := -4, bound := 6 }

def render (o : Operand) : String :=
  match o.kind with
  | .none => "_"
  | .int => toString o.val
  | .real => realLayout.render (Int64.ofInt o.val).toUInt64
  | .bool => if o.val = 0 then "false" else "true"
  | .text => "s" ++ toString o.val
  | .global => "g" ++ toString o.val
  | .stack => "[bp" ++ signed o.val ++ "]"
  | .value => "t" ++ toString o.val
  | .ref => "r" ++ toString o.val
  | .accumulator => "cr"
  | .returned => "rr"
  | .spreadCount => "tc"
  | .label => "L" ++ toString o.val
  | .address => "@" ++ toString o.val
  | .func => "f" ++ toString o.val
  | .native => "n" ++ toString o.val
  | .type => "ty" ++ toString o.val
  | .other _ => "?"

end Operand

structure Instr where
  op : Opcode
  a : Operand := .none
  b : Operand := .none
  c : Operand := .none
deriving DecidableEq, Repr, Inhabited

namespace Instr

def operands (i : Instr) : List Operand := [i.a, i.b, i.c]

/-- An instruction from at most three operands. -/
def ofOperands? (op : Opcode) : List Operand → Option Instr
  | [] => some { op }
  | [a] => some { op, a }
  | [a, b] => some { op, a, b }
  | [a, b, c] => some { op, a, b, c }
  | _ => none

def mapOperands {m : Type → Type} [Monad m] (f : Operand → m Operand) (i : Instr) : m Instr := do
  return { i with a := ← f i.a, b := ← f i.b, c := ← f i.c }

def render (i : Instr) : String :=
  let shown := (i.operands.filter (·.kind ≠ .none)).map Operand.render
  i.op.name ++ (if shown.isEmpty then "" else " " ++ String.intercalate ", " shown)

end Instr

end TreeCompiler
