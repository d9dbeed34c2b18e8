import TreeCompiler.Emit.Operand

/-!
# Values

`exprStep` emits the code of an expression and yields the operand that its value is in. Arithmetic, construction and
access leave it in the accumulator, calls in the return register; names and literals need no code. Scratch registers in
a result belong to the caller.

* `binaryCode`, `unaryCode?` : the instruction of an operator, specialized when the operands agree on a primitive kind;
* `makeStruct` : the fields of a struct in declaration order: given values, then declared defaults, then zero values;
* `zeroStep` : the initial value of a variable without initializer;
* `call` : arguments are pushed last to first, live scratch registers are saved across the call.
-/

namespace TreeCompiler.Emit

/-! ## Operators -/

def binaryCode? : Operator → Option Opcode
  | .add => some .add
  | .sub => some .sub
  | .mul => some .mul
  | .div => some .div
  | .mod => some .mod
  | .bitAnd => some .bitAnd
  | .bitOr => some .bitOr
  | .bitXor => some .bitXor
  | .shl => some .shl
  | .shr => some .shr
  | .eq => some .eq
  | .ne => some .ne
  | .lt => some .lt
  | .le => some .le
  | .gt => some .gt
  | .ge => some .ge
  | _ => none

def unaryCode? : Operator → Option Opcode
  | .neg => some .neg
  | .not => some .not
  | .bitNot => some .bitNot
  | _ => none

def primOf? : TypeKind → Option Prim
  | .int => some .int
  | .real => some .real
  | .string => some .text
  | _ => none

def specializeFor (code : Opcode) : Option Prim → Opcode
  | some p => code.specialize p
  | none => code

def valueKind (id : NodeId) : EmitM TypeKind := do typeKind (← node id).valueType

/-- The instruction of an operator over two expressions. -/
def binaryCode (at' : NodeId) (op : Operator) (l r : NodeId) : EmitM Opcode := do
  match binaryCode? op with
  | none => fatal at' (.noInstruction op.text)
  | some code =>
    let lk ← valueKind l
    if r ≠ 0 && (← valueKind r) ≠ lk then return code
    return specializeFor code (primOf? lk)

/-- Conjunction and disjunction jump over the right operand. -/
def logical (rec : Emitter) (id : NodeId) (n : Node) : EmitM Operand := do
  let res ← acquireValue id
  move res (← exprAny rec n.a)
  let stop ← newLabel
  emit { op := if n.op = .or then .jumpIf else .jumpUnless, a := res, b := .label stop }
  move res (← exprAny rec n.b)
  bindLabel stop
  return res

def binary (rec : Emitter) (id : NodeId) (n : Node) : EmitM Operand := do
  if n.op.isLogical then return ← logical rec id n
  let op ← binaryCode id n.op n.a n.b
  let (l, r) ← operands2 rec n.a n.b
  emit { op, a := l, b := r }
  free l
  free r
  return .accumulator

def unary (rec : Emitter) (n : Node) : EmitM Operand := do
  let some code := unaryCode? n.op | fatal n.a (.noInstruction n.op.text)
  let op := specializeFor code (primOf? (← valueKind n.a))
  let x ← exprAny rec n.a
  emit { op, a := x }
  free x
  return .accumulator

/-! ## Names -/

def binding (id : NodeId) : EmitM SymbolId := do
  match (← unit).bindings.get? id with
  | some sym => return sym
  | none => fatal id (.unbound (← node id).qualifiedName)

def name (id : NodeId) (n : Node) : EmitM Operand := do
  let sym ← binding id
  let s ← symbol sym
  match s.kind with
  | .var => storage sym
  | .function =>
    if s.attrs.has .native then return .native (← nativeRef sym)
    return .func (← funcRef sym)
  | .variant =>
    emit { op := .makeVariant, a := .type (← typeRef n.valueType), b := .int s.tag, c := .int 0 }
    return .accumulator
  | k => fatal id (.symbolNotAValue k.name n.qualifiedName)

/-- A struct member by offset, or by name on dynamic values. -/
def fieldOperand (id : NodeId) (n : Node) : EmitM Operand := do
  match (← unit).fields.get? id with
  | some i => return .int i
  | none => stringRef n.name

/-- A function literal: a plain function, or a closure over the current values of its captures. -/
def literal (id : NodeId) : EmitM Operand := do
  let some fn := (← unit).funcs.get? id | fatal id .literalUndeclared
  let index ← funcRef fn
  let captures := (← funcScope fn).captures
  if captures.isEmpty then return .func index
  captures.forM fun (outer, _) => do emit { op := .push, a := ← storage outer }
  emit { op := .makeClosure, a := .func index, b := .int captures.length }
  return .accumulator

/-! ## Assignments -/

def assignName (rec : Emitter) (id : NodeId) (n : Node) : EmitM Operand := do
  let dst ← storage (← binding n.a)
  if n.op = .none then
    move dst (← exprAny rec n.b)
    return dst
  let (l, r) ← operands2 rec n.a n.b
  emit { op := ← binaryCode id n.op n.a n.b, a := l, b := r }
  free l
  free r
  move dst .accumulator
  return dst

/-- The new value of a compound assignment, from the old one in the accumulator. -/
def combine (id : NodeId) (n : Node) (value : Operand) : EmitM Operand := do
  emit { op := ← binaryCode id n.op n.a n.b, a := .accumulator, b := value }
  free value
  return .accumulator

def assignElement (rec : Emitter) (id : NodeId) (n tn : Node) : EmitM Operand := do
  let (x, k, v) ← operands3 rec tn.a tn.b n.b
  if n.op = .none then
    emit { op := .setIndex, a := x, b := k, c := v }
    free x
    free k
    return v
  let x ← stable x (← node tn.a).valueType id
  let k ← stable k (← node tn.b).valueType id
  let v ← stable v (← node n.b).valueType id
  emit { op := .index, a := x, b := k }
  let v ← combine id n v
  emit { op := .setIndex, a := x, b := k, c := v }
  free x
  free k
  return v

def assignMember (rec : Emitter) (id : NodeId) (n tn : Node) : EmitM Operand := do
  let (x, v) ← operands2 rec tn.a n.b
  let field ← fieldOperand n.a tn
  if n.op = .none then
    emit { op := .setField, a := x, b := field, c := v }
    free x
    return v
  let x ← stable x (← node tn.a).valueType id
  let v ← stable v (← node n.b).valueType id
  emit { op := .field, a := x, b := field }
  let v ← combine id n v
  emit { op := .setField, a := x, b := field, c := v }
  free x
  return v

/-- Stores into a variable, an element or a field; the result is the stored value. -/
def assign (rec : Emitter) (id : NodeId) (n : Node) : EmitM Operand := do
  let tn ← node n.a
  match tn.kind with
  | .ident => assignName rec id n
  | .index => assignElement rec id n tn
  | .member => assignMember rec id n tn
  | k => fatal id (.cannotAssign k.name)

/-! ## Structs and zero values -/

/-- Default values of the fields of a struct type. -/
def fieldDefaults (t : TypeId) : EmitM (List NodeId) := do
  let u ← unit
  match u.fieldDefaults.get? t with
  | some ds => return ds
  | none => return ((u.types.underlying? t).bind u.fieldDefaults.get?).getD []

def makeStruct (rec : Emitter) (at' : NodeId) (t : TypeId) (given : List (String × NodeId)) : EmitM Operand := do
  let fields := (← typeInfo t).shape.fields
  let defaults ← fieldDefaults t
  for (f, i) in fields.zipIdx do
    match given.lookup f.name, defaults.getD i 0 with
    | some v, _ => push rec v
    | none, 0 => pushOperand (← rec.zero at' f.type)
    | none, d => push rec d
  emit { op := .makeStruct, a := .type (← typeRef t), b := .int fields.length }
  return .accumulator

def zeroStep (rec : Emitter) (at' : NodeId) (t : TypeId) : EmitM Operand := do
  match (← typeInfo t).shape with
  | .scalar .bool => return .bool false
  | .scalar .real => return .real 0
  | .scalar .string => stringRef ""
  | .array _ =>
    emit { op := .makeArray, a := .int 0 }
    return .accumulator
  | .map _ _ =>
    emit { op := .makeMap, a := .int 0 }
    return .accumulator
  | .tuple elems =>
    elems.forM fun e => do pushOperand (← rec.zero at' e)
    emit { op := .makeTuple, a := .int elems.length }
    return .accumulator
  | .struct _ => makeStruct rec at' t []
  | _ => return .int 0

/-- The fields of a struct literal; of two with one name the later counts. -/
def givenFields (list : List NodeId) : EmitM (List (String × NodeId)) := do
  let fields ← list.mapM node
  return (fields.map fun f => (f.name, f.a)).reverse

/-! ## Casts -/

def cast (rec : Emitter) (id : NodeId) (n : Node) : EmitM Operand := do
  let v ← exprAny rec n.a
  let source ← valueKind n.a
  let target ← typeKind n.valueType
  if source = target || target = .dynamic then return v
  if target = .void then return ← fatal id .castToVoid
  emit { op := .cast, a := v, b := .type target.number }
  free v
  return .accumulator

/-! ## Calls -/

/-- Saves every scratch register in use to a fresh spill slot. -/
def spillLive : EmitM (List (Operand × Operand)) := do
  let s ← get
  (s.values.live ++ s.refs.live).mapM fun reg => do
    let slot ← spill
    emit { op := .mov, a := slot, b := reg }
    return (reg, slot)

def restoreLive (saved : List (Operand × Operand)) : EmitM Unit := do
  saved.forM fun (reg, slot) => emit { op := .mov, a := reg, b := slot }
  unspill saved.length

/-- Pushes an argument and yields how many fixed slots it took. An unpacked one adds its length to the spread count. -/
def pushArg (rec : Emitter) (arg : NodeId) : EmitM Nat := do
  let an ← node arg
  if an.kind ≠ .unpack then
    push rec arg
    return 1
  note an.span
  let v ← exprAny rec an.a
  emit { op := .unpack, a := v, b := .int an.int }
  free v
  return 0

/-- Makes a union value from the call of a variant. -/
def makeVariant (rec : Emitter) (id : NodeId) (n : Node) (target : SymbolId) : EmitM Operand := do
  let tag := (← symbol target).tag
  pushAll rec n.list
  emit { op := .makeVariant, a := .type (← typeRef n.valueType), b := .int tag, c := .int n.list.length }
  if !(← isResolved n.valueType) then return ← fatal id .variantUnresolved
  return .accumulator

/-- The instruction of a call and what it calls. -/
def calleeOperand (rec : Emitter) (id : NodeId) (n : Node) (info : CallInfo) : EmitM (Opcode × Operand) := do
  match info.kind with
  | .static => return (.call, .func (← funcRef info.target))
  | .native => return (.callNative, .native (← nativeRef info.target))
  | _ =>
    let v ← exprAny rec n.a
    return (.callValue, ← stable v (← node n.a).valueType id)

/-- Saves the spread count of a call around this one. -/
def saveSpread : EmitM (Option Operand) := do
  if 0 < (← get).countingCalls then
    let slot ← spill
    emit { op := .mov, a := slot, b := .spreadCount }
    return some slot
  else return none

/-- Starts a spread count if the call needs one. -/
def beginSpread (spread : Bool) : EmitM (Option Operand) := do
  if spread then
    let saved ← saveSpread
    emit { op := .mov, a := .spreadCount, b := .int 0 }
    modify fun s => { s with countingCalls := s.countingCalls + 1 }
    return saved
  else return none

def endSpread (spread : Bool) : EmitM Unit :=
  modify fun s => { s with countingCalls := if spread then s.countingCalls - 1 else s.countingCalls }

def restoreSpread : Option Operand → EmitM Unit
  | some slot => do
    emit { op := .mov, a := .spreadCount, b := slot }
    unspill 1
  | none => pure ()

def pushArgs (rec : Emitter) (n : Node) (method : Bool) : EmitM Nat := do
  let fixed ← n.list.reverse.foldlM (fun k arg => return k + (← pushArg rec arg)) 0
  if !method then return fixed
  push rec (← node n.a).a
  return fixed + 1

/-- The call instruction between the saves and the restores of the scratch registers in use. -/
def invoke (op : Opcode) (callee : Operand) (fixed : Nat) : EmitM Unit := do
  let saved ← spillLive
  emit { op, a := callee, b := .int fixed }
  restoreLive saved

def call (rec : Emitter) (id : NodeId) (n : Node) : EmitM Operand := do
  let some info := (← unit).calls.get? id | fatal id .callUnresolved
  if info.kind = .variant then return ← makeVariant rec id n info.target
  let (op, callee) ← calleeOperand rec id n info
  let tree := (← unit).tree
  let spread := n.list.any fun arg => tree.kind arg = .unpack
  let savedCount ← beginSpread spread
  let fixed ← pushArgs rec n info.method
  endSpread spread
  free callee
  invoke op callee fixed
  restoreSpread savedCount
  return if (← typeKind n.valueType) = .void then .none else .returned

/-! ## Every kind of expression -/

def value (rec : Emitter) (id : NodeId) (n : Node) : EmitM Operand := do
  match n.kind with
  | .intLit => return .int n.int
  | .realLit => return .real n.real
  | .stringLit => stringRef n.text
  | .boolLit | .typeIs => return .bool (n.int ≠ 0)
  | .ident => name id n
  | .binary => binary rec id n
  | .unary => unary rec n
  | .assign => assign rec id n
  | .call => call rec id n
  | .index =>
    let (x, k) ← operands2 rec n.a n.b
    emit { op := .index, a := x, b := k }
    free x
    free k
    return .accumulator
  | .member =>
    let x ← exprAny rec n.a
    emit { op := .field, a := x, b := ← fieldOperand id n }
    free x
    return .accumulator
  | .arrayLit =>
    pushAll rec n.list
    emit { op := .makeArray, a := .int n.list.length }
    return .accumulator
  | .mapLit =>
    n.list.forM fun p => do
      let pn ← node p
      push rec pn.a
      push rec pn.b
    emit { op := .makeMap, a := .int n.list.length }
    return .accumulator
  | .tupleLit =>
    pushAll rec n.list
    emit { op := .makeTuple, a := .int n.list.length }
    return .accumulator
  | .structLit => makeStruct rec id n.valueType (← givenFields n.list)
  | .cast => cast rec id n
  | .func => literal id
  | k => fatal id (.notAValue k.name)

def exprStep (rec : Emitter) (id : NodeId) (inRegister : Bool) : EmitM Operand := do
  let n ← node id
  if !n.completed || !(← isResolved n.valueType) then return ← fatal id (.unresolved n.kind.name)
  note n.span
  let op ← value rec id n
  if inRegister then toRegister op n.valueType id else return op

end TreeCompiler.Emit
