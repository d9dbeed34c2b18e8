import TreeCompiler.Emit.Run
import TreeCompiler.Analysis.Run
import TreeCompiler.Build.Event

/-!
# Compiling a tree

`Tree.compile` analyzes a tree and, unless there are errors or only a check was asked for, generates its program. What
the user did wrong ends up in the bag; a `CompileFailure` is anything else that stopped the work.
-/

namespace TreeCompiler

structure CompileOptions where
  checkOnly : Bool := false
  maxDiagnostics : Int := 0
  analysis : AnalysisOptions := {}
  emission : EmitOptions := {}
  cancelled : Bool := false
deriving Inhabited

inductive CompileFailure
  | analysis (f : AnalysisFailure)
  | emission (f : EmitFailure)
  | cancelled
deriving DecidableEq, Repr, Inhabited

namespace CompileFailure

def message : CompileFailure → String
  | analysis f => f.message
  | emission f => f.message
  | cancelled => "context canceled"

end CompileFailure

/-- The outcome for one tree. `stage` is the last one that was entered. -/
structure Compiled where
  bag : Bag := {}
  stage : Stage := .analyze
  output : Option (Program × DebugTable) := none
  failure : Option CompileFailure := none
  tracer : Tracer := {}
deriving Inhabited

namespace Compiled

def failed (c : Compiled) : Bool := c.failure.isSome || c.bag.hasErrors

end Compiled

def Tree.compile (tree : Tree) (o : CompileOptions) (tracer : Tracer) : Compiled :=
  let e := tree.analyze o.analysis tracer
  let bag := ((Bag.ofLimit o.maxDiagnostics).addAll e.diagnostics).sort
  let stopped : Compiled := { bag, tracer := e.state.tracer }
  match e.failure with
  | some f => { stopped with failure := some (.analysis f) }
  | none =>
    if o.cancelled then { stopped with failure := some .cancelled }
    else if bag.hasErrors || o.checkOnly then stopped
    else match e.state.result.generate o.emission e.state.tracer with
      | (.ok output, tracer) => { bag, stage := .emit, output := some output, tracer }
      | (.error f, tracer) => { bag, stage := .emit, failure := some (.emission f), tracer }

end TreeCompiler
