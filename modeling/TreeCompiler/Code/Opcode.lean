/-!
# Instructions of the machine

`Opcode` is the closed set of instructions, numbered in the order of its constructors; a number outside the set is kept
as `other`. Arithmetic, comparison, construction and access leave their result in the accumulator
(`writesAccumulator`). `specialize` picks the form of an instruction for operands of one primitive kind.
-/

namespace TreeCompiler

inductive Opcode
  | nop
  | mov
  | halt
  | add
  | addInt
  | addReal
  | addText
  | sub
  | subInt
  | subReal
  | mul
  | mulInt
  | mulReal
  | div
  | divInt
  | divReal
  | mod
  | modInt
  | bitAnd
  | bitOr
  | bitXor
  | shl
  | shr
  | eq
  | eqInt
  | eqReal
  | eqText
  | ne
  | neInt
  | neReal
  | neText
  | lt
  | ltInt
  | ltReal
  | ltText
  | le
  | leInt
  | leReal
  | leText
  | gt
  | gtInt
  | gtReal
  | gtText
  | ge
  | geInt
  | geReal
  | geText
  | neg
  | negInt
  | negReal
  | not
  | bitNot
  | cast
  | jump
  | jumpIf
  | jumpUnless
  | push
  | pop
  | call
  | callValue
  | callNative
  | ret
  | reserve
  | unpack
  | makeArray
  | makeMap
  | makeTuple
  | makeStruct
  | makeClosure
  | makeVariant
  | index
  | setIndex
  | field
  | setField
  | tag
  | payload
  | iterate
  | iterNext
  | iterKey
  | iterValue
  | other (code : Nat)
deriving DecidableEq, Repr, Inhabited

/-- The operand kinds that instructions are specialized for. -/
inductive Prim
  | int
  | real
  | text
deriving DecidableEq, Repr, Inhabited

namespace Opcode

/-- The known instructions with their names, in the order of their numbers. -/
def table : List (Opcode × String) :=
  [(nop, "nop"), (mov, "mov"), (halt, "halt"),
   (add, "add"), (addInt, "add.i"), (addReal, "add.r"), (addText, "add.s"),
   (sub, "sub"), (subInt, "sub.i"), (subReal, "sub.r"), (mul, "mul"), (mulInt, "mul.i"), (mulReal, "mul.r"),
   (div, "div"), (divInt, "div.i"), (divReal, "div.r"), (mod, "mod"), (modInt, "mod.i"),
   (bitAnd, "band"), (bitOr, "bor"), (bitXor, "bxor"), (shl, "shl"), (shr, "shr"),
   (eq, "eq"), (eqInt, "eq.i"), (eqReal, "eq.r"), (eqText, "eq.s"),
   (ne, "ne"), (neInt, "ne.i"), (neReal, "ne.r"), (neText, "ne.s"),
   (lt, "lt"), (ltInt, "lt.i"), (ltReal, "lt.r"), (ltText, "lt.s"),
   (le, "le"), (leInt, "le.i"), (leReal, "le.r"), (leText, "le.s"),
   (gt, "gt"), (gtInt, "gt.i"), (gtReal, "gt.r"), (gtText, "gt.s"),
   (ge, "ge"), (geInt, "ge.i"), (geReal, "ge.r"), (geText, "ge.s"),
   (neg, "neg"), (negInt, "neg.i"), (negReal, "neg.r"), (not, "not"), (bitNot, "bnot"), (cast, "cast"),
   (jump, "jmp"), (jumpIf, "jt"), (jumpUnless, "jf"),
   (push, "psh"), (pop, "pop"), (call, "call"), (callValue, "callv"), (callNative, "calln"), (ret, "ret"),
   (reserve, "reserve"), (unpack, "unpk"),
   (makeArray, "mkarr"), (makeMap, "mkmap"), (makeTuple, "mktup"), (makeStruct, "mkstruct"),
   (makeClosure, "mkclos"), (makeVariant, "mkvar"),
   (index, "idx"), (setIndex, "idxset"), (field, "fld"), (setField, "fldset"), (tag, "tag"), (payload, "val"),
   (iterate, "iter"), (iterNext, "iternext"), (iterKey, "iterkey"), (iterValue, "iterval")]

def count : Nat := table.length

def ofNumber (n : Nat) : Opcode :=
  match table[n]? with
  | some row => row.1
  | none => other n

def number : Opcode → Nat
  | other n => n
  | o => o.ctorIdx

def name (o : Opcode) : String :=
  match table[o.number]? with
  | some row => row.2
  | none => "op?"

def isKnown (o : Opcode) : Bool := o.number < count

def writesAccumulator (o : Opcode) : Bool :=
  (add.number ≤ o.number && o.number ≤ cast.number) ||
    (makeArray.number ≤ o.number && o.number ≤ makeVariant.number) ||
    [index, field, tag, payload, iterate, iterKey, iterValue].contains o

/-- Calls overwrite the accumulator and the return register. -/
def isCall : Opcode → Bool
  | call | callValue | callNative => true
  | _ => false

def specialize : Opcode → Prim → Opcode
  | add, .int => addInt
  | add, .real => addReal
  | add, .text => addText
  | sub, .int => subInt
  | sub, .real => subReal
  | mul, .int => mulInt
  | mul, .real => mulReal
  | div, .int => divInt
  | div, .real => divReal
  | mod, .int => modInt
  | eq, .int => eqInt
  | eq, .real => eqReal
  | eq, .text => eqText
  | ne, .int => neInt
  | ne, .real => neReal
  | ne, .text => neText
  | lt, .int => ltInt
  | lt, .real => ltReal
  | lt, .text => ltText
  | le, .int => leInt
  | le, .real => leReal
  | le, .text => leText
  | gt, .int => gtInt
  | gt, .real => gtReal
  | gt, .text => gtText
  | ge, .int => geInt
  | ge, .real => geReal
  | ge, .text => geText
  | neg, .int => negInt
  | neg, .real => negReal
  | o, _ => o

end Opcode

end TreeCompiler
