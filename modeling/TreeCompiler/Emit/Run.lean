import TreeCompiler.Emit.Statement

/-!
# Generating a program

`generate` emits the program of an analyzed unit: the entry code with the static initializers and the items of every file,
then each function that was referenced, in the order of first reference.
-/

namespace TreeCompiler

/-- Sizes of the value and reference pools. -/
structure EmitOptions where
  values : Nat := 16
  refs : Nat := 16
deriving DecidableEq, Repr, Inhabited

namespace Emit

def emitStatic (rec : Emitter) (st : StaticInit) : EmitM Unit := do
  let sym ← symbol st.symbol
  let types := (← unit).types
  if sym.rejected || !types.isResolved sym.type || sym.templateArgs.any types.hasParams then return
  let dst ← storage st.symbol
  move dst (← if st.init = 0 then rec.zero sym.decl sym.type else exprAny rec st.init)

/-- Opens the frame of the entry code. Yields its label and the address of its reservation. -/
def openEntry : EmitM (Label × Nat) := do
  let entry ← newLabel
  bindLabel entry
  modify fun s => { s with frame := {} }
  return (entry, ← reserve)

def entryCode (rec : Emitter) : EmitM Unit := do
  let u ← unit
  u.statics.forM (emitStatic rec)
  u.tree.roots.forM rec.stmt
  emit { op := .halt }

def emitEntry (rec : Emitter) : EmitM Label := do
  let (entry, at') ← openEntry
  entryCode rec
  patch at' (← get).frame.slots
  return entry

/-- A body that is an expression returns its value. -/
def emitBody (rec : Emitter) (body : NodeId) : EmitM Unit := do
  if (← kindOf body) = .block then
    (← node body).list.forM rec.stmt
    emit { op := .ret }
  else if body ≠ 0 then emit { op := .ret, a := ← exprAny rec body }

/-- Opens the frame of a function and places its entry. Yields the span that traces it and the address of its
reservation. -/
def openFunc (fn : SymbolId) (entry : Label) : EmitM (OpenSpan × Nat) := do
  let n ← declaration (← symbol fn)
  let scope ← funcScope fn
  let name ← funcName fn
  let span ← modifyGet fun s =>
    let (span, tracer) := s.tracer.start TraceScope.function name s.span
    (span, { s with tracer, frame := { fn, captures := scope.captures.length, locals := scope.maxStack } })
  bindLabel entry
  modify fun s => { s with recorder := s.recorder.beginFunc name s.asm.pos n.span }
  return (span, ← reserve)

/-- Closes the frame of a function, whose size is known now. -/
def closeFunc (index : Nat) (span : OpenSpan) (at' : Nat) : EmitM Unit := do
  let frame := (← get).frame
  patch at' frame.slots
  modify fun s =>
    { s with
      asm := s.asm.setFrame index frame.slots frame.captures
      recorder := (s.recorder.endFunc? s.asm.pos).getD s.recorder
      tracer := s.tracer.close (span.withExtra "frame" (toString frame.slots)) "" }

def emitFunc (rec : Emitter) (fn : SymbolId) : EmitM Unit := do
  let n ← declaration (← symbol fn)
  let some (index, entry) := (← get).funcs.get? fn | throw .brokenReference
  let (span, at') ← openFunc fn entry
  emitBody rec n.b
  closeFunc index span at'

/-- Emits the queued functions from position `i` on; the queue may grow meanwhile. -/
def emitQueue (rec : Emitter) : Nat → Nat → EmitM Unit
  | 0, _ => throw .unbounded
  | fuel + 1, i => do
    match (← get).work[i]? with
    | none => return
    | some fn =>
      emitFunc rec fn
      emitQueue rec fuel (i + 1)

def run : EmitM (Program × DebugTable) := do
  let u ← unit
  let rec' := emitter (8 * u.tree.size + 8 * u.types.size + 4096)
  let span ← modifyGet fun s =>
    let (span, tracer) := s.tracer.start TraceScope.pass "emit" 0
    (span, { s with tracer, span := span.id })
  let entry ← emitEntry rec'
  emitQueue rec' (u.scopes.symbols.size + 1) 0
  modify fun s =>
    let span := (span.withExtra "funcs" (toString s.work.size)).withExtra "instrs" (toString s.asm.pos)
    { s with asm := s.asm.setGlobals u.scopes.globals, tracer := s.tracer.close span "" }
  let s ← get
  match s.asm.finish entry with
  | .error e => throw (.unfinished e)
  | .ok program => return (program, s.recorder.finish u.tree.files s.asm.pos)

/-- The state before anything is emitted. -/
def start (u : AnalysisResult) (o : EmitOptions) (tracer : Tracer) : EmitState :=
  { unit := u, tracer, values := Pool.ofSize "t" .value o.values, refs := Pool.ofSize "r" .ref o.refs }

end Emit

/-- The program with its debug table, or what stopped generation, and the tracer as it was left. -/
def AnalysisResult.generate (u : AnalysisResult) (o : EmitOptions) (tracer : Tracer) :
    Except EmitFailure (Program × DebugTable) × Tracer :=
  match Emit.run.run (Emit.start u o tracer) with
  | .ok p s => (.ok p, s.tracer)
  | .error e s => (.error e, s.tracer)

end TreeCompiler
