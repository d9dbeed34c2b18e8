import TreeCompiler.Analysis.State
import TreeCompiler.Code.Assembler
import TreeCompiler.Debug.Recorder

/-!
# The state of code generation

* `Pool` : a bank of scratch registers. A register belongs to whoever acquired it until it is released; a held one
  also survives releases until it is let go;
* `Frame` : the code being emitted, a function body or the entry code: its locals, spill slots and open loops;
* `EmitState` : the whole state; `EmitM` : a step that changes it or fails;
* `mark`, `rewind` : speculative emission. A rewind gives back code, registers and spill slots; the tables, the labels
  made and the deepest spill stay;
* `notes` : the nodes whose code was kept, newest first. The recorder is told the same, but only by addresses.
-/

namespace TreeCompiler

inductive EmitCause
  | missingNode
  | exhausted (pool : String) (size : Nat)
  | releasedTwice (pool : String) (index : Nat)
  | unbalancedHold (pool : String) (index : Nat)
  | unresolved (kind : String)
  | noInstruction (op : String)
  | cannotAssign (kind : String)
  | callUnresolved
  | variantUnresolved
  | notAValue (kind : String)
  | unbound (name : String)
  | symbolNotAValue (kind name : String)
  | literalUndeclared
  | castToVoid
  | voidOperand
  | notAStatement (kind : String)
  | noLoop (label : String)
  | armUnresolved
  | noStorage (name : String)
deriving DecidableEq, Repr, Inhabited

namespace EmitCause

def message : EmitCause → String
  | missingNode => "missing node"
  | exhausted pool n => pool ++ " register pool exhausted: " ++ toString n ++ " registers live"
  | releasedTwice pool i => pool ++ toString i ++ " released twice"
  | unbalancedHold pool i => "unbalanced hold of " ++ pool ++ toString i
  | unresolved kind => kind ++ " reached code generation unresolved"
  | noInstruction op => "no instruction for operator " ++ op
  | cannotAssign kind => "cannot assign to " ++ kind
  | callUnresolved => "call was never resolved"
  | variantUnresolved => "variant of unresolved union"
  | notAValue kind => "cannot emit " ++ kind ++ " as a value"
  | unbound name => "identifier " ++ name ++ " is unbound"
  | symbolNotAValue kind name => kind ++ " " ++ name ++ " is not a value"
  | literalUndeclared => "function literal was never declared"
  | castToVoid => "cast to void"
  | voidOperand => "void value used as an operand"
  | notAStatement kind => "cannot emit " ++ kind ++ " as a statement"
  | noLoop label => "no enclosing loop for " ++ quote label
  | armUnresolved => "match arm was never resolved"
  | noStorage name => "variable " ++ name ++ " has no storage"

end EmitCause

/-- `fatal` stops generation at a node; `unfinished` is a program with a label that was never placed. -/
inductive EmitFailure
  | fatal (node : NodeId) (cause : EmitCause)
  | unfinished (e : AsmError)
  | misuse (m : AsmMisuse)
  | unknownType (id : TypeId)
  | brokenReference
  | unbounded
deriving DecidableEq, Repr, Inhabited

namespace EmitFailure

def message : EmitFailure → String
  | fatal 0 cause => "codegen: " ++ cause.message
  | fatal node cause => "codegen: node " ++ toString node ++ ": " ++ cause.message
  | unfinished e => "codegen: " ++ e.message
  | misuse m => m.message
  | unknownType id => "types: unknown TypeID " ++ toString id
  | brokenReference => "broken reference"
  | unbounded => "emission does not end"

end EmitFailure

/-! ## Registers -/

structure Pool where
  name : String
  kind : OperandKind
  used : Array Bool
  held : Array Bool
deriving DecidableEq, Repr, Inhabited

namespace Pool

def ofSize (name : String) (kind : OperandKind) (size : Nat) : Pool :=
  { name, kind, used := Array.replicate size false, held := Array.replicate size false }

def size (p : Pool) : Nat := p.used.size

def isUsed (p : Pool) (i : Nat) : Bool := p.used.getD i false

def isHeld (p : Pool) (i : Nat) : Bool := p.held.getD i false

def register (p : Pool) (i : Nat) : Operand := { kind := p.kind, val := i }

/-- The free register with the lowest number. -/
def acquire? (p : Pool) : Option (Operand × Pool) :=
  (p.used.findIdx? (!·)).map fun i => (p.register i, { p with used := p.used.setIfInBounds i true })

/-- A held register stays in use. -/
def release (p : Pool) (i : Nat) : Except EmitCause Pool :=
  if p.isHeld i then .ok p
  else if !p.isUsed i then .error (.releasedTwice p.name i)
  else .ok { p with used := p.used.setIfInBounds i false }

def hold (p : Pool) (i : Nat) : Except EmitCause Pool :=
  if !p.isUsed i || p.isHeld i then .error (.unbalancedHold p.name i)
  else .ok { p with held := p.held.setIfInBounds i true }

/-- Lets a held register go and releases it. -/
def unhold (p : Pool) (i : Nat) : Except EmitCause Pool :=
  if !p.isHeld i then .error (.unbalancedHold p.name i)
  else .ok { p with held := p.held.setIfInBounds i false, used := p.used.setIfInBounds i false }

/-- The registers in use, in order. -/
def live (p : Pool) : List Operand := ((List.range p.size).filter p.isUsed).map p.register

end Pool

/-! ## Frames -/

/-- The jump targets of an open loop. -/
structure LoopTargets where
  label : String
  exit : Label
  again : Label
deriving DecidableEq, Repr, Inhabited

/-- `fn` is 0 for the entry code. -/
structure Frame where
  fn : SymbolId := 0
  captures : Nat := 0
  locals : Nat := 0
  spills : Nat := 0
  maxSpill : Nat := 0
  loops : List LoopTargets := []
deriving Inhabited

namespace Frame

/-- The size of the frame: locals, then spill slots. -/
def slots (f : Frame) : Nat := f.locals + f.maxSpill

/-- The next spill slot below the locals. -/
def spill (f : Frame) : Operand × Frame :=
  (.stack (-((f.locals + f.spills : Nat) : Int)),
    { f with spills := f.spills + 1, maxSpill := max f.maxSpill (f.spills + 1) })

def unspill (f : Frame) (n : Nat) : Frame := { f with spills := f.spills - n }

/-- The innermost loop, or the innermost one with that label. -/
def target? (f : Frame) (label : String) : Option LoopTargets :=
  f.loops.find? fun l => label = "" || l.label = label

end Frame

/-! ## State -/

structure EmitState where
  unit : AnalysisResult
  asm : Assembler := {}
  recorder : Recorder := {}
  notes : List Noted := []
  tracer : Tracer := {}
  span : Nat := 0
  values : Pool
  refs : Pool
  accumulatorWrites : Nat := 0
  returnWrites : Nat := 0
  countingCalls : Nat := 0
  frame : Frame := {}
  funcs : IdMap (Nat × Label) := {}
  work : Array SymbolId := #[]
  natives : IdMap Nat := {}
  typeRows : IdMap Nat := {}
deriving Inhabited

abbrev EmitM := EStateM EmitFailure EmitState

namespace Emit

def fatal {α : Type} (node : NodeId) (cause : EmitCause) : EmitM α := throw (.fatal node cause)

def unit : EmitM AnalysisResult := return (← get).unit

def node (id : NodeId) : EmitM Node := do
  match (← unit).tree.get? id with
  | some n => return n
  | none => fatal id .missingNode

def kindOf (id : NodeId) : EmitM NodeKind := return (← unit).tree.kind id

def symbol (id : SymbolId) : EmitM Symbol := do
  match (← unit).scopes.symbol? id with
  | some s => return s
  | none => throw .brokenReference

/-- The node that declares a symbol. -/
def declaration (s : Symbol) : EmitM Node := do
  match (← unit).tree.get? s.decl with
  | some n => return n
  | none => throw .brokenReference

def funcScope (fn : SymbolId) : EmitM Scope := do
  match (← unit).scopes.scope? (← symbol fn).body with
  | some s => return s
  | none => throw .brokenReference

def typeInfo (id : TypeId) : EmitM Ty := do
  match (← unit).types.lookup? id with
  | some t => return t
  | none => throw (.unknownType id)

/-- The kind of a type without its naming. -/
def typeKind (id : TypeId) : EmitM TypeKind := return (← unit).types.kind id

def isResolved (id : TypeId) : EmitM Bool := return (← unit).types.isResolved id

/-! ## Instructions -/

/-- Appends an instruction and notes which implicit registers it overwrites. -/
def emit (i : Instr) : EmitM Unit :=
  modify fun s =>
    { s with
      asm := s.asm.emit i
      accumulatorWrites :=
        s.accumulatorWrites + (if i.op.writesAccumulator then 1 else 0) + (if i.op.isCall then 1 else 0)
      returnWrites := s.returnWrites + (if i.op.isCall then 1 else 0) }

def pos : EmitM Nat := return (← get).asm.pos

/-- The code of a node starts here. -/
def note (span : Span) : EmitM Unit :=
  modify fun s =>
    { s with recorder := s.recorder.node s.asm.pos span, notes := { ip := s.asm.pos, span } :: s.notes }

def newLabel : EmitM Label :=
  modifyGet fun s =>
    let (l, asm) := s.asm.newLabel
    (l, { s with asm })

def bindLabel (l : Label) : EmitM Unit := do
  match (← get).asm.bindLabel l with
  | .ok asm => modify fun s => { s with asm }
  | .error m => throw (.misuse m)

def patch (ip slots : Nat) : EmitM Unit := do
  match (← get).asm.patch ip slots with
  | .ok asm => modify fun s => { s with asm }
  | .error m => throw (.misuse m)

/-- Emits a frame reservation and yields its address. -/
def reserve : EmitM Nat :=
  modifyGet fun s => (s.asm.pos, { s with asm := s.asm.reserve })

def stringRef (text : String) : EmitM Operand :=
  modifyGet fun s =>
    let (o, asm) := s.asm.addString text
    (o, { s with asm })

/-! ## Registers -/

/-- Whether values of a type live in the value pool; all others are references. -/
def isValue (t : TypeId) : EmitM Bool := do
  match ← typeKind t with
  | .bool | .int | .real | .handle => return true
  | _ => return false

def acquireValue (at' : NodeId) : EmitM Operand := do
  let s ← get
  match s.values.acquire? with
  | some (o, values) =>
    set { s with values }
    return o
  | none => fatal at' (.exhausted s.values.name s.values.size)

def acquireRef (at' : NodeId) : EmitM Operand := do
  let s ← get
  match s.refs.acquire? with
  | some (o, refs) =>
    set { s with refs }
    return o
  | none => fatal at' (.exhausted s.refs.name s.refs.size)

def withValues (step : Pool → Except EmitCause Pool) : EmitM Unit := do
  match step (← get).values with
  | .ok values => modify fun s => { s with values }
  | .error c => fatal 0 c

def withRefs (step : Pool → Except EmitCause Pool) : EmitM Unit := do
  match step (← get).refs with
  | .ok refs => modify fun s => { s with refs }
  | .error c => fatal 0 c

/-- Gives a scratch register back; other operands own nothing. -/
def free (o : Operand) : EmitM Unit :=
  match o.kind with
  | .value => withValues (·.release o.val.toNat)
  | .ref => withRefs (·.release o.val.toNat)
  | _ => pure ()

/-- Copies an operand into a fresh scratch register unless it is in one. -/
def toRegister (o : Operand) (t : TypeId) (at' : NodeId) : EmitM Operand := do
  match o.kind with
  | .value | .ref => return o
  | .none => fatal at' .voidOperand
  | _ =>
    let r ← if ← isValue t then acquireValue at' else acquireRef at'
    emit { op := .mov, a := r, b := o }
    return r

/-- Moves an operand out of the accumulator or the return register. -/
def stable (o : Operand) (t : TypeId) (at' : NodeId) : EmitM Operand :=
  if o.kind = .accumulator || o.kind = .returned then toRegister o t at' else pure o

def move (dst src : Operand) : EmitM Unit := do
  if dst ≠ src then emit { op := .mov, a := dst, b := src }
  free src

def pushOperand (o : Operand) : EmitM Unit := do
  emit { op := .push, a := o }
  free o

def spill : EmitM Operand :=
  modifyGet fun s =>
    let (o, frame) := s.frame.spill
    (o, { s with frame })

def unspill (n : Nat) : EmitM Unit := modify fun s => { s with frame := s.frame.unspill n }

/-! ## Speculation -/

structure Mark where
  code : AsmMark
  notes : List Noted
  values : Pool
  refs : Pool
  spills : Nat
  countingCalls : Nat
deriving Inhabited

def mark : EmitM Mark := do
  let s ← get
  return { code := s.asm.mark, notes := s.notes, values := s.values, refs := s.refs, spills := s.frame.spills,
           countingCalls := s.countingCalls }

def rewind (m : Mark) : EmitM Unit :=
  modify fun s =>
    { s with
      asm := s.asm.rewind m.code
      recorder := s.recorder.truncate m.code.ip
      notes := m.notes
      values := m.values
      refs := m.refs
      frame := { s.frame with spills := m.spills }
      countingCalls := m.countingCalls }

/-! ## Tables -/

/-- A function's name behind its namespaces and with its type arguments. -/
def funcName (fn : SymbolId) : EmitM String := do
  let u ← unit
  let sym ← symbol fn
  let name := u.scopes.symbolName fn
  let path := u.scopes.qualifiedName sym.scope
  let shown := if path = "::" then name else String.ofList (path.toList.drop 2) ++ "::" ++ name
  return shown ++ (if sym.templateArgs.isEmpty then "" else "<" ++ u.types.formatList sym.templateArgs ++ ">")

/-- The row of a function. Its body is queued on the first reference. -/
def funcRef (fn : SymbolId) : EmitM Nat := do
  match (← get).funcs.get? fn with
  | some (index, _) => return index
  | none =>
    let n ← declaration (← symbol fn)
    let name ← funcName fn
    modifyGet fun s =>
      let (index, entry, asm) := s.asm.declareFunc name n.list.length
      (index, { s with asm, funcs := s.funcs.insert fn (index, entry), work := s.work.push fn })

def nativeRef (fn : SymbolId) : EmitM Nat := do
  match (← get).natives.get? fn with
  | some index => return index
  | none =>
    let sym ← symbol fn
    let name := (← unit).scopes.symbolName fn
    let row : NativeRow := match (← declaration sym).native with
      | some x => { library := x.library, symbol := x.symbol, handle := sym.handle }
      | none => { symbol := name, handle := sym.handle }
    modifyGet fun s =>
      let (index, asm) := s.asm.addNative row
      (index, { s with asm, natives := s.natives.insert fn index })

/-- The row that describes a struct or union type. -/
def typeRef (t : TypeId) : EmitM Nat := do
  match (← get).typeRows.get? t with
  | some index => return index
  | none =>
    let ty ← typeInfo t
    let name := (← unit).types.format t
    modifyGet fun s =>
      let (index, asm) := s.asm.addType { name, kind := ty.kind.name, fields := ty.shape.fields.map (·.name) }
      (index, { s with asm, typeRows := s.typeRows.insert t index })

/-- The operand of a variable in the current frame. Arguments sit above the capture slots. -/
def storage (id : SymbolId) : EmitM Operand := do
  let sym ← symbol id
  let captures := (← get).frame.captures
  match sym.storage with
  | .global slot => return .global slot
  | .frame off => return .stack (if 0 < off then off + captures else off)
  | .captured i => return .stack (2 + i)
  | .none => fatal sym.decl (.noStorage ((← unit).scopes.symbolName id))

end Emit

end TreeCompiler
