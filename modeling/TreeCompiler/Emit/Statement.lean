import TreeCompiler.Emit.Value

/-!
# Statements

* loops : a body runs between the labels of its loop; `break` and `continue` jump to them;
* `foreach` : the iterator stays in a held register for the whole loop;
* `matchStmt` : tests the tag of the subject against the arms in order and falls back to the default arm.
-/

namespace TreeCompiler.Emit

def letStmt (rec : Emitter) (id : NodeId) (n : Node) : EmitM Unit := do
  if n.isGeneric || n.flags.has .static then return
  match (← unit).decls.get? id with
  | none => return
  | some sym =>
    let s ← symbol sym
    if s.rejected then return
    let dst ← storage sym
    move dst (← if n.b = 0 then rec.zero id s.type else exprAny rec n.b)

/-- Jumps to the label unless the condition holds. -/
def condition (rec : Emitter) (id : NodeId) (target : Label) : EmitM Unit := do
  let c ← exprAny rec id
  emit { op := .jumpUnless, a := c, b := .label target }
  free c

def jumpTo (l : Label) : EmitM Unit := emit { op := .jump, a := .label l }

def ifStmt (rec : Emitter) (n : Node) : EmitM Unit := do
  let stop ← newLabel
  if n.c = 0 then
    condition rec n.a stop
    rec.stmt n.b
    bindLabel stop
  else
    let no ← newLabel
    condition rec n.a no
    rec.stmt n.b
    jumpTo stop
    bindLabel no
    rec.stmt n.c
    bindLabel stop

def inLoop (rec : Emitter) (l : LoopTargets) (body : NodeId) : EmitM Unit := do
  modify fun s => { s with frame := { s.frame with loops := l :: s.frame.loops } }
  rec.stmt body
  modify fun s => { s with frame := { s.frame with loops := s.frame.loops.tail } }

def whileLoop (rec : Emitter) (n : Node) : EmitM Unit := do
  let top ← newLabel
  let exit ← newLabel
  bindLabel top
  condition rec n.a exit
  inLoop rec { label := n.label, exit, again := top } n.b
  jumpTo top
  bindLabel exit

def forLoop (rec : Emitter) (n : Node) : EmitM Unit := do
  rec.stmt n.a
  let top ← newLabel
  let again ← newLabel
  let exit ← newLabel
  bindLabel top
  if n.b ≠ 0 then condition rec n.b exit
  inLoop rec { label := n.label, exit, again } n.d
  bindLabel again
  rec.stmt n.c
  jumpTo top
  bindLabel exit

/-- Moves what an instruction makes of the iterator into a variable. -/
def fetch (op : Opcode) (it : Operand) (sym : SymbolId) : EmitM Unit := do
  emit { op, a := it }
  move (← storage sym) .accumulator

def foreach (rec : Emitter) (id : NodeId) (n : Node) : EmitM Unit := do
  let x ← exprAny rec n.a
  emit { op := .iterate, a := x }
  free x
  let it ← acquireRef id
  emit { op := .mov, a := it, b := .accumulator }
  withRefs (·.hold it.val.toNat)
  let top ← newLabel
  let exit ← newLabel
  bindLabel top
  emit { op := .iterNext, a := it, b := .label exit }
  let u ← unit
  if let some sym := u.decls.get? id then fetch .iterValue it sym
  if let some sym := u.keys.get? id then fetch .iterKey it sym
  inLoop rec { label := n.label, exit, again := top } n.b
  jumpTo top
  bindLabel exit
  withRefs (·.unhold it.val.toNat)

/-- Tests the tag against each arm. Yields the labels of the arms and where to go when none matches. -/
def dispatch (tag : Operand) : List NodeId → Label → EmitM (List Label × Label)
  | [], fallback => return ([], fallback)
  | c :: rest, fallback => do
    let l ← newLabel
    let some t := (← unit).cases.get? c | fatal c .armUnresolved
    if 0 ≤ t then
      emit { op := .eqInt, a := tag, b := .int t }
      emit { op := .jumpIf, a := .accumulator, b := .label l }
    let (ls, fallback) ← dispatch tag rest (if t < 0 then l else fallback)
    return (l :: ls, fallback)

def arm (rec : Emitter) (subject : Operand) (stop : Label) (c : NodeId) (l : Label) : EmitM Unit := do
  bindLabel l
  let cn ← node c
  note cn.span
  if let some sym := (← unit).decls.get? c then fetch .payload subject sym
  rec.stmt cn.a
  jumpTo stop

def matchStmt (rec : Emitter) (id : NodeId) (n : Node) : EmitM Unit := do
  let v ← exprAny rec n.a
  let subject ← stable v (← node n.a).valueType id
  let held : Bool := subject.kind = .ref
  if held then withRefs (·.hold subject.val.toNat)
  emit { op := .tag, a := subject }
  let tag ← acquireValue id
  emit { op := .mov, a := tag, b := .accumulator }
  let stop ← newLabel
  let (labels, fallback) ← dispatch tag n.list stop
  jumpTo fallback
  withValues (·.release tag.val.toNat)
  (n.list.zip labels).forM fun (c, l) => arm rec subject stop c l
  bindLabel stop
  if held then withRefs (·.unhold subject.val.toNat) else free subject

/-- At top level a return ends the program. -/
def returnStmt (rec : Emitter) (n : Node) : EmitM Unit := do
  if (← get).frame.fn = 0 then
    if n.a ≠ 0 then free (← exprAny rec n.a)
    emit { op := .halt }
  else if n.a = 0 then emit { op := .ret }
  else
    let v ← exprAny rec n.a
    emit { op := .ret, a := v }
    free v

def loopTarget (id : NodeId) (label : String) : EmitM LoopTargets := do
  match (← get).frame.target? label with
  | some l => return l
  | none => fatal id (.noLoop label)

/-- Function bodies are emitted when they are first referenced, so declarations emit nothing. -/
def stmtStep (rec : Emitter) (id : NodeId) : EmitM Unit := do
  if id = 0 then return
  let n ← node id
  if n.kind.isExpr && n.kind ≠ .func then return ← free (← exprAny rec id)
  note n.span
  match n.kind with
  | .file | .nameSpace | .block => n.list.forM rec.stmt
  | .exprStmt => free (← exprAny rec n.a)
  | .letDecl => letStmt rec id n
  | .func | .typeDecl | .unionDecl | .importing => return
  | .ifStmt => ifStmt rec n
  | .whileLoop => whileLoop rec n
  | .forLoop => forLoop rec n
  | .eachLoop => foreach rec id n
  | .matchStmt => matchStmt rec id n
  | .breakStmt => jumpTo (← loopTarget id n.label).exit
  | .continueStmt => jumpTo (← loopTarget id n.label).again
  | .returnStmt => returnStmt rec n
  | k => fatal id (.notAStatement k.name)

/-- The functions of emission with a bound on the depth of their calls. -/
def emitter : Nat → Emitter
  | 0 => { expr := fun _ _ => throw .unbounded, stmt := fun _ => throw .unbounded, zero := fun _ _ => throw .unbounded }
  | fuel + 1 =>
    { expr := fun id inRegister => exprStep (emitter fuel) id inRegister
      stmt := fun id => stmtStep (emitter fuel) id
      zero := fun at' t => zeroStep (emitter fuel) at' t }

end TreeCompiler.Emit
