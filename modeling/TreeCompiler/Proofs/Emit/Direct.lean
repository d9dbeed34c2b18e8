import TreeCompiler.Emit.Run

/-!
# Emitting once

The direct generator knows of every list of operands which of them are forced into registers at the end. It emits the list
once, with those forced, and takes nothing back.

* `finalForced` : the set that the rounds over a list of expressions end with, or the one that a round fails with. It is
  found on a copy of the state, and nothing of the rounds stays;
* `Direct.operands` : the operands of a list, with that set;
* `Direct.emitter`, `generateDirect` : emission over it. Everything else is shared with the generator.
-/

namespace TreeCompiler.Emit

/-- The set that the rounds from `forced` on end with; none if they do not end in time. -/
def finalForced (rec : Emitter) (ids : List NodeId) (storing : List Bool) (s : EmitState) : Nat → List Bool → Option (List Bool)
  | 0, _ => none
  | fuel + 1, forced =>
    match evaluateAll rec (ids.zip (forced.zip storing)) s with
    | .error .. => some forced
    | .ok values s' =>
      let stale := values.dropLast.map (·.isStale s')
      if stale.any id then finalForced rec ids storing s fuel (forced.zipWith or (stale ++ [false])) else some forced

namespace Direct

/-- The operands of a list, with a set of forced ones that is known. -/
def evaluateForced (rec : Emitter) (ids : List NodeId) (storing : List Bool) : Option (List Bool) → EmitM (List Operand)
  | none => throw .unbounded
  | some forced => do return (← evaluateAll rec (ids.zip (forced.zip storing))).map (·.op)

def operands (rec : Emitter) (ids : List NodeId) : EmitM (List Operand) := do
  let storing ← storesAfter ids
  let s ← get
  evaluateForced rec ids storing (finalForced rec ids storing s (ids.length + 1) (ids.map fun _ => false))

def operands2 (rec : Emitter) (a b : NodeId) : EmitM (Operand × Operand) := do
  match ← operands rec [a, b] with
  | [x, y] => return (x, y)
  | _ => throw .brokenReference

def operands3 (rec : Emitter) (a b c : NodeId) : EmitM (Operand × Operand × Operand) := do
  match ← operands rec [a, b, c] with
  | [x, y, z] => return (x, y, z)
  | _ => throw .brokenReference

def binary (rec : Emitter) (id : NodeId) (n : Node) : EmitM Operand := do
  if n.op.isLogical then return ← logical rec id n
  let op ← binaryCode id n.op n.a n.b
  let (l, r) ← operands2 rec n.a n.b
  emit { op, a := l, b := r }
  free l
  free r
  return .accumulator

def assignName (rec : Emitter) (id : NodeId) (n : Node) : EmitM Operand := do
  let dst ← storage (← binding n.a)
  if n.op = .none then
    move dst (← exprAny rec n.b)
    return dst
  let (l, r) ← operands2 rec n.a n.b
  emit { op := ← binaryCode id n.op n.a n.b, a := l, b := r }
  free l
  free r
  move dst .accumulator
  return dst

def assignElement (rec : Emitter) (id : NodeId) (n tn : Node) : EmitM Operand := do
  let (x, k, v) ← operands3 rec tn.a tn.b n.b
  if n.op = .none then
    emit { op := .setIndex, a := x, b := k, c := v }
    free x
    free k
    return v
  let x ← stable x (← node tn.a).valueType id
  let k ← stable k (← node tn.b).valueType id
  let v ← stable v (← node n.b).valueType id
  emit { op := .index, a := x, b := k }
  let v ← combine id n v
  emit { op := .setIndex, a := x, b := k, c := v }
  free x
  free k
  return v

def assignMember (rec : Emitter) (id : NodeId) (n tn : Node) : EmitM Operand := do
  let (x, v) ← operands2 rec tn.a n.b
  let field ← fieldOperand n.a tn
  if n.op = .none then
    emit { op := .setField, a := x, b := field, c := v }
    free x
    return v
  let x ← stable x (← node tn.a).valueType id
  let v ← stable v (← node n.b).valueType id
  emit { op := .field, a := x, b := field }
  let v ← combine id n v
  emit { op := .setField, a := x, b := field, c := v }
  free x
  return v

def assign (rec : Emitter) (id : NodeId) (n : Node) : EmitM Operand := do
  let tn ← node n.a
  match tn.kind with
  | .ident => assignName rec id n
  | .index => assignElement rec id n tn
  | .member => assignMember rec id n tn
  | k => fatal id (.cannotAssign k.name)

/-- The kinds of expression that evaluate a list of operands; all others are emitted as they are. -/
def value (rec : Emitter) (id : NodeId) (n : Node) : EmitM Operand := do
  match n.kind with
  | .binary => binary rec id n
  | .assign => assign rec id n
  | .index =>
    let (x, k) ← operands2 rec n.a n.b
    emit { op := .index, a := x, b := k }
    free x
    free k
    return .accumulator
  | _ => Emit.value rec id n

def exprStep (rec : Emitter) (id : NodeId) (inRegister : Bool) : EmitM Operand := do
  let n ← node id
  if !n.completed || !(← isResolved n.valueType) then return ← fatal id (.unresolved n.kind.name)
  note n.span
  let op ← value rec id n
  if inRegister then toRegister op n.valueType id else return op

def emitter : Nat → Emitter
  | 0 => { expr := fun _ _ => throw .unbounded, stmt := fun _ => throw .unbounded, zero := fun _ _ => throw .unbounded }
  | fuel + 1 =>
    { expr := fun id inRegister => exprStep (emitter fuel) id inRegister
      stmt := fun id => stmtStep (emitter fuel) id
      zero := fun at' t => zeroStep (emitter fuel) at' t }

end Direct

/-- Generating a program with emitters of a given kind. -/
def runWith (emitters : Nat → Emitter) : EmitM (Program × DebugTable) := do
  let u ← unit
  let rec' := emitters (8 * u.tree.size + 8 * u.types.size + 4096)
  let span ← modifyGet fun s =>
    let (span, tracer) := s.tracer.start TraceScope.pass "emit" 0
    (span, { s with tracer, span := span.id })
  let entry ← emitEntry rec'
  emitQueue rec' (u.scopes.symbols.size + 1) 0
  modify fun s =>
    let span := (span.withExtra "funcs" (toString s.work.size)).withExtra "instrs" (toString s.asm.pos)
    { s with asm := s.asm.setGlobals u.scopes.globals, tracer := s.tracer.close span "" }
  let s ← get
  match s.asm.finish entry with
  | .error e => throw (.unfinished e)
  | .ok program => return (program, s.recorder.finish u.tree.files s.asm.pos)

end TreeCompiler.Emit

namespace TreeCompiler

end TreeCompiler
