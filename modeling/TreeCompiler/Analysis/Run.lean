import TreeCompiler.Analysis.Statement

/-!
# Analyzing a unit

`analyze` declares every name and then resolves the unit in sweeps. A lenient sweep leaves what it cannot infer for the
next one; when a sweep makes no progress, or their number reaches the limit, one strict sweep reports what is left.

* `sweep` : every file, every function body and every variable instance once; bodies and instances that appear on the
  way are included;
* `resolveSweeps` : the lenient sweeps and the strict one.
-/

namespace TreeCompiler

namespace Analysis

/-- Runs a step inside a span of the pass scope. `extra` is attached to its end. -/
def traced (name : String) (parent : Nat) (extra : Analysis → List (String × String)) (step : Nat → AnalysisM Unit) :
    AnalysisM Unit := do
  let span ← modifyGet fun s =>
    let (span, tracer) := s.tracer.start 2 name parent
    (span, { s with tracer })
  step span.id
  modify fun s =>
    let span := (extra s).foldl (fun sp (k, v) => sp.withExtra k v) span
    { s with tracer := s.tracer.close span "" }

def resolveBody (rec : Resolver) (fn : SymbolId) : AnalysisM Unit := do
  let sym ← symbol fn
  if sym.rejected || (← anyParams sym.templateArgs) then return
  discard <| funcType rec fn
  let body := (← node (← funcInfo fn).node).b
  if body ≠ 0 then discard <| rec.resolve body

/-- Visits the elements of a list that may grow meanwhile, from position `i` on. -/
def visitGrowing {α : Type} (list : Analysis → Array α) (visit : α → AnalysisM Unit) : Nat → Nat → AnalysisM Unit
  | 0, _ => throw .unbounded
  | fuel + 1, i => do
    match (list (← get))[i]? with
    | none => return
    | some x =>
      visit x
      visitGrowing list visit fuel (i + 1)

/-- How many functions and variable instances a sweep may meet. -/
def sweepLimit : Nat := 100000

def sweep (rec : Resolver) : AnalysisM Unit := do
  modify fun s => { s with progress := false, pending := 0 }
  for root in (← tree).roots do discard <| rec.resolve root
  visitGrowing (·.bodies) (resolveBody rec) sweepLimit 0
  visitGrowing (·.instances) (fun id => discard <| rec.resolve id) sweepLimit 0

def tracedSweep (rec : Resolver) (parent : Nat) : AnalysisM Unit := do
  modifyResult fun r => { r with sweeps := r.sweeps + 1 }
  traced "resolve_sweep" parent (fun s => [("pending", toString s.pending), ("strict", toString s.strict)])
    fun _ => sweep rec

/-- `budget` lenient sweeps at most, then the strict one if anything is left. -/
def resolveSweeps (rec : Resolver) (parent : Nat) : Nat → AnalysisM Unit
  | 0 => do
    modify fun s => { s with strict := true }
    tracedSweep rec parent
  | budget + 1 => do
    tracedSweep rec parent
    let s ← get
    if s.pending = 0 then return
    resolveSweeps rec parent (if s.progress then budget else 0)
termination_by budget => budget
decreasing_by split <;> omega

/-- Declares and resolves the unit. -/
def run : AnalysisM Unit := do
  traced "declare" 0 (fun _ => []) fun _ => do (← tree).roots.forM declare
  let rec' := resolver (4 * (← tree).size + 4096)
  let budget := (← get).options.maxSweeps
  traced "resolve" 0 (fun s => [("sweeps", toString s.result.sweeps)]) fun span => resolveSweeps rec' span budget

/-- Binds the names of the built-in types in the global namespace. -/
def declareBuiltins (tab : ScopeTable) : ScopeTable :=
  [("int", TypeTable.int), ("real", TypeTable.real), ("bool", TypeTable.bool), ("string", TypeTable.string),
   ("handle", TypeTable.handle), ("dynamic", TypeTable.dynamic), ("void", TypeTable.void)].foldl
    (fun tab (text, type) =>
      let (name, tab) := tab.intern text
      match tab.declare ScopeTable.root { name, kind := .type, type } with
      | .ok (_, tab) => tab
      | .error _ => tab)
    tab

def initial (tree : Tree) (options : AnalysisOptions) (tracer : Tracer) : Analysis :=
  { result := { tree, scopes := declareBuiltins {} }, options, tracer }

end Analysis

/-- The state at the end of an analysis and what stopped it, if anything did. -/
structure AnalysisEnd where
  state : Analysis
  failure : Option AnalysisFailure := none
deriving Inhabited

namespace AnalysisEnd

def diagnostics (e : AnalysisEnd) : List Diagnostic := e.state.sink.delivered

def hasErrors (e : AnalysisEnd) : Bool := 0 < e.state.sink.errorCount

end AnalysisEnd

def Tree.analyze (tree : Tree) (options : AnalysisOptions) (tracer : Tracer) : AnalysisEnd :=
  match Analysis.run.run (Analysis.initial tree options tracer) with
  | .ok _ state => { state }
  | .error failure state => { state, failure := some failure }

end TreeCompiler
