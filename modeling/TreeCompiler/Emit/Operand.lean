import TreeCompiler.Emit.State

/-!
# Evaluating operands

Emitting an expression may emit statements and zero values and the other way round. `Emitter` bundles the functions
through which the steps call each other; the circle is closed once, with a bound on its depth.

`operands` evaluates a list of expressions from left to right so that all of them are valid at its end:

* a variable that is read before an expression that may store to variables is copied to a scratch register;
* when a later expression overwrites the accumulator or the return register an earlier value is still in, everything is
  dropped and emitted again with that value forced into a scratch register.
-/

namespace TreeCompiler

structure Emitter where
  /-- The value of an expression; with `true` in a scratch register of the caller. -/
  expr : NodeId → Bool → EmitM Operand
  stmt : NodeId → EmitM Unit
  zero : NodeId → TypeId → EmitM Operand

namespace Emit

def exprAny (rec : Emitter) (id : NodeId) : EmitM Operand := rec.expr id false

def push (rec : Emitter) (id : NodeId) : EmitM Unit := do pushOperand (← exprAny rec id)

def pushAll (rec : Emitter) (ids : List NodeId) : EmitM Unit := ids.forM (push rec)

/-- Whether a tree contains an assignment or a call outside of function literals. The search goes in evaluation order;
after the first find it looks only at the siblings on its way back, all of which must exist. -/
def storesAux (t : Tree) : Nat → NodeId → Except EmitFailure Bool
  | 0, _ => .error .unbounded
  | fuel + 1, id =>
    if id = 0 then .ok false
    else match t.get? id with
      | none => .error (.fatal id .missingNode)
      | some n =>
        match n.kind with
        | .assign | .call => .ok true
        | .func => .ok false
        | _ => n.children.foldlM (fun found c =>
            if !found then storesAux t fuel c
            else if c = 0 || (t.get? c).isSome then .ok true
            else .error (.fatal c .missingNode)) false

/-- Whether evaluating an expression may assign a variable. -/
def stores (id : NodeId) : EmitM Bool := do
  let t := (← unit).tree
  match storesAux t (t.size + 2) id with
  | .ok b => return b
  | .error e => throw e

/-- For each expression, whether one after it may store. -/
def storesAfter : List NodeId → EmitM (List Bool)
  | [] => return []
  | [_] => return [false]
  | _ :: next :: rest => do
    let tail ← storesAfter (next :: rest)
    if tail.headD false then return true :: tail
    return (← stores next) :: tail

/-- A value and how often the implicit registers had been written when it was made. -/
structure Evaluated where
  op : Operand
  accumulatorWrites : Nat
  returnWrites : Nat
deriving Inhabited

/-- Whether the register that the value is in has been overwritten since. -/
def Evaluated.isStale (e : Evaluated) (s : EmitState) : Bool :=
  e.op.kind = .accumulator && e.accumulatorWrites ≠ s.accumulatorWrites ||
    e.op.kind = .returned && e.returnWrites ≠ s.returnWrites

def evaluate (rec : Emitter) (id : NodeId) (forced storesLater : Bool) : EmitM Evaluated := do
  let op ← rec.expr id forced
  let op ← if storesLater && op.isVariable then toRegister op (← node id).valueType id else pure op
  let s ← get
  return { op, accumulatorWrites := s.accumulatorWrites, returnWrites := s.returnWrites }

def evaluateAll (rec : Emitter) : List (NodeId × Bool × Bool) → EmitM (List Evaluated)
  | [] => return []
  | (id, forced, storesLater) :: rest => do
    let e ← evaluate rec id forced storesLater
    return e :: (← evaluateAll rec rest)

/-- Each round but the last forces one more expression, so their number bounds the rounds. -/
def operandsAux (rec : Emitter) (ids : List NodeId) (storing : List Bool) : Nat → List Bool → EmitM (List Operand)
  | 0, _ => throw .unbounded
  | fuel + 1, forced => do
    let m ← mark
    let values ← evaluateAll rec (ids.zip (forced.zip storing))
    let s ← get
    let stale := values.dropLast.map (·.isStale s)
    if stale.any id then
      rewind m
      operandsAux rec ids storing fuel (forced.zipWith or (stale ++ [false]))
    else return values.map (·.op)

def operands (rec : Emitter) (ids : List NodeId) : EmitM (List Operand) := do
  operandsAux rec ids (← storesAfter ids) (ids.length + 1) (ids.map fun _ => false)

def operands2 (rec : Emitter) (a b : NodeId) : EmitM (Operand × Operand) := do
  match ← operands rec [a, b] with
  | [x, y] => return (x, y)
  | _ => throw .brokenReference

def operands3 (rec : Emitter) (a b c : NodeId) : EmitM (Operand × Operand × Operand) := do
  match ← operands rec [a, b, c] with
  | [x, y, z] => return (x, y, z)
  | _ => throw .brokenReference

end Emit

end TreeCompiler
