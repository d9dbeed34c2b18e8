import TreeCompiler.IdMap
import TreeCompiler.Diagnostic.Sink
import TreeCompiler.Types.Rules
import TreeCompiler.Types.Fingerprint
import TreeCompiler.Scope.Lookup
import TreeCompiler.Trace.Tracer
import TreeCompiler.Externs
import TreeCompiler.Analysis.Problem

/-!
# The state of an analysis

* `AnalysisResult` : what the analysis hands on: the completed tree with its types, scopes and the bindings of its nodes;
* `Analysis` : the whole state of a run; `AnalysisM` : a step that changes it or fails;
* `AnalysisFailure` : the ways a run can end without a result. None of them is a mistake in the unit;
* `finish`, `fail`, `pendingType` : giving a node its type, giving up on it after an error, and leaving it for later;
* `tryingFor`, `trying` : a speculative step, whose reports are kept only when it succeeds without an error.
-/

namespace TreeCompiler

/-- How a call site is emitted. -/
inductive CallKind
  | static
  | native
  | value
  | variant
deriving DecidableEq, Repr, Inhabited

namespace CallKind

def number : CallKind → Nat
  | static => 1
  | native => 2
  | value => 3
  | variant => 4

end CallKind

/-- The outcome of resolving a call; for a method the receiver is the first argument. -/
structure CallInfo where
  kind : CallKind
  target : SymbolId := 0
  method : Bool := false
deriving DecidableEq, Repr, Inhabited

/-- A global slot that is initialized before the top-level code. -/
structure StaticInit where
  symbol : SymbolId
  init : NodeId
deriving DecidableEq, Repr, Inhabited

structure AnalysisResult where
  tree : Tree
  types : TypeTable := TypeTable.initial
  scopes : ScopeTable := {}
  bindings : IdMap SymbolId := {}
  decls : IdMap SymbolId := {}
  keys : IdMap SymbolId := {}
  funcs : IdMap SymbolId := {}
  calls : IdMap CallInfo := {}
  fields : IdMap Nat := {}
  cases : IdMap Int := {}
  fieldDefaults : IdMap (List NodeId) := {}
  statics : List StaticInit := []
  sweeps : Nat := 0
deriving Inhabited

/-- What resolution knows of a function. -/
structure FuncInfo where
  node : NodeId
  params : List TypeId := []
  variadic : Bool := false
  result : TypeId := 0
  returns : List NodeId := []
  signed : Bool := false
deriving Inhabited

inductive InternalCause
  | missingNode
  | neverDeclared (kind : String)
  | noBodyInfo (function : String)
  | outsideLiteral (kind : String)
  | unexpectedKind (kind : String)
  | declaredBy (name kind : String)
  | strayVariant (name : String)
  | notGeneric (name : String)
deriving DecidableEq, Repr, Inhabited

namespace InternalCause

def message : InternalCause → String
  | missingNode => "missing node"
  | neverDeclared kind => "node " ++ kind ++ " was never declared"
  | noBodyInfo fn => "function " ++ fn ++ " has no body info"
  | outsideLiteral kind => kind ++ " resolved outside of its literal"
  | unexpectedKind kind => "unexpected node kind " ++ kind
  | declaredBy name kind => "type symbol " ++ name ++ " declared by " ++ kind
  | strayVariant name => "variant " ++ name ++ " is not part of its union"
  | notGeneric name => name ++ " is not generic"

end InternalCause

/-- `brokenReference` is a reference into a table that the table does not have; `unbounded` is a run that did not end
within its fuel. -/
inductive AnalysisFailure
  | internal (node : NodeId) (cause : InternalCause)
  | unknownType (id : TypeId)
  | brokenReference
  | unbounded
deriving DecidableEq, Repr, Inhabited

namespace AnalysisFailure

def message : AnalysisFailure → String
  | internal 0 cause => "sema: internal error: " ++ cause.message
  | internal node cause => "sema: internal error at node " ++ toString node ++ ": " ++ cause.message
  | unknownType id => "types: unknown TypeID " ++ toString id
  | brokenReference => "broken reference"
  | unbounded => "analysis does not end"

end AnalysisFailure

/-- Limits and loader; a missing loader refuses every native function. -/
structure AnalysisOptions where
  loader : Option Registry := none
  maxTryDepth : Nat := 32
  maxSweeps : Nat := 8
deriving Inhabited

/-- An instance that was asked for, and the one that was given. -/
structure InstanceRequest where
  generic : SymbolId
  args : List TypeId
  inst : SymbolId
deriving DecidableEq, Repr, Inhabited

structure Analysis where
  result : AnalysisResult
  options : AnalysisOptions := {}
  prints : Fingerprints := {}
  requests : List InstanceRequest := []
  sink : Sink := {}
  tracer : Tracer := {}
  strict : Bool := false
  scope : ScopeId := ScopeTable.root
  loops : List String := []
  nodeScope : IdMap ScopeId := {}
  nodeSeq : IdMap Nat := {}
  seq : Nat := 0
  declaring : IdMap Unit := {}
  resolving : IdMap Unit := {}
  typing : IdMap Unit := {}
  funcs : IdMap FuncInfo := {}
  bodies : Array SymbolId := #[]
  instances : Array NodeId := #[]
  matchOf : IdMap NodeId := {}
  progress : Bool := false
  pending : Nat := 0
deriving Inhabited

abbrev AnalysisM := EStateM AnalysisFailure Analysis

namespace Analysis

/-! ## Access -/

def tree : AnalysisM Tree := return (← get).result.tree

def types : AnalysisM TypeTable := return (← get).result.types

def scopes : AnalysisM ScopeTable := return (← get).result.scopes

def modifyResult (f : AnalysisResult → AnalysisResult) : AnalysisM Unit :=
  modify fun s => { s with result := f s.result }

def modifyScopes (f : ScopeTable → ScopeTable) : AnalysisM Unit :=
  modifyResult fun r => { r with scopes := f r.scopes }

/-- Runs a step of the type table and keeps the table it returns. -/
def withTypes {α : Type} (f : TypeTable → α × TypeTable) : AnalysisM α :=
  modifyGet fun s =>
    let (v, types) := f s.result.types
    (v, { s with result := { s.result with types } })

/-- Runs a step of the scope table and keeps the table it returns. -/
def withScopes {α : Type} (f : ScopeTable → α × ScopeTable) : AnalysisM α :=
  modifyGet fun s =>
    let (v, scopes) := f s.result.scopes
    (v, { s with result := { s.result with scopes } })

def internal {α : Type} (node : NodeId) (cause : InternalCause) : AnalysisM α := throw (.internal node cause)

def node (id : NodeId) : AnalysisM Node := do
  match (← tree).get? id with
  | some n => return n
  | none => internal id .missingNode

def modifyNode (id : NodeId) (f : Node → Node) : AnalysisM Unit :=
  modifyResult fun r => { r with tree := r.tree.modify id f }

def addNode (n : Node) : AnalysisM NodeId :=
  modifyGet fun s =>
    let (id, tree) := s.result.tree.push n
    (id, { s with result := { s.result with tree } })

def spanOf (id : NodeId) : AnalysisM Span := return (← tree).span id

def symbol (id : SymbolId) : AnalysisM Symbol := do
  match (← scopes).symbol? id with
  | some s => return s
  | none => throw .brokenReference

def scopeInfo (id : ScopeId) : AnalysisM Scope := do
  match (← scopes).scope? id with
  | some s => return s
  | none => throw .brokenReference

def setSymbolType (id : SymbolId) (t : TypeId) : AnalysisM Unit :=
  modifyScopes fun tab => tab.modifySymbol id fun s => { s with type := t }

def symbolName (id : SymbolId) : AnalysisM String := return (← scopes).symbolName id

def internName (s : String) : AnalysisM NameId := withScopes (·.intern s)

def typeInfo (id : TypeId) : AnalysisM Ty := do
  match (← types).lookup? id with
  | some t => return t
  | none => throw (.unknownType id)

/-- The structure of a type without its naming. -/
def bareType (id : TypeId) : AnalysisM Ty := return (← typeInfo id).bare

def typeText (id : TypeId) : AnalysisM String := return (← types).format id

def typeTexts (ids : List TypeId) : AnalysisM String := return (← types).formatList ids

def isResolved (t : TypeId) : AnalysisM Bool := return t ≠ 0 && (← types).isResolved t

/-! ## Scopes of nodes -/

def setScope (id : NodeId) (scope : ScopeId) : AnalysisM Unit :=
  modify fun s =>
    { s with nodeScope := s.nodeScope.insert id scope, nodeSeq := s.nodeSeq.insert id (s.seq + 1), seq := s.seq + 1 }

/-- The scope a node was declared in. -/
def scopeOf (id : NodeId) : AnalysisM ScopeId := do
  match (← get).nodeScope.get? id with
  | some scope => return scope
  | none => internal id (.neverDeclared ((← tree).kind id).name)

def seqOf (id : NodeId) : AnalysisM Nat := return ((← get).nodeSeq.get? id).getD 0

def query (id : NodeId) : AnalysisM Query := do
  return { origin := ← scopeOf id, file := (← spanOf id).file, seq := ← seqOf id }

/-- Gives a new node the scope and order of an existing one. -/
def adopt (id like : NodeId) : AnalysisM Unit := do
  setScope id (← scopeOf like)
  let seq ← seqOf like
  modify fun s => { s with nodeSeq := s.nodeSeq.insert id seq }

/-! ## Reports -/

def reportWith (p : Problem) (span : Span) (notes : List Note) : AnalysisM Unit :=
  modify fun s =>
    { s with sink := s.sink.report { severity := .error, code := p.code, message := p.message, span, notes } }

def report (p : Problem) (span : Span) : AnalysisM Unit := reportWith p span []

/-- A speculative step that succeeds or not and yields a value. Its reports reach the sink only when it succeeds and none
of them is an error. At the depth limit it does not run and yields `refused`. -/
def tryingFor {α : Type} (refused : α) (step : AnalysisM (Bool × α)) : AnalysisM (Bool × α) := do
  let s ← get
  if s.options.maxTryDepth ≤ s.sink.depth then
    report (.tryTooDeep s.options.maxTryDepth) {}
    return (false, refused)
  modify fun s => { s with sink := s.sink.openBuffer }
  let (ok, v) ← step
  if ok && !(← get).sink.heldErrors then
    modify fun s => { s with sink := s.sink.commit }
    return (true, v)
  modify fun s => { s with sink := s.sink.discard }
  return (false, v)

def trying (step : AnalysisM Bool) : AnalysisM Bool :=
  return (← tryingFor () (do return (← step, ()))).1

/-! ## Completion -/

/-- Records the type of a node. The node is completed when the type is fully known and stays pending otherwise. -/
def finish (id : NodeId) (t : TypeId) : AnalysisM TypeId := do
  let n ← node id
  if ← isResolved t then
    modifyNode id fun n => { n with valueType := t, completed := true }
    if !n.completed then modify fun s => { s with progress := true }
    return t
  modifyNode id fun n => { n with valueType := t }
  modify fun s => { s with pending := s.pending + 1 }
  return TypeTable.pending

/-- Completes a node as dynamic after an error, so that what surrounds it reports nothing further. -/
def fail (id : NodeId) : AnalysisM TypeId := finish id TypeTable.dynamic

def pendingType : AnalysisM TypeId := do
  modify fun s => { s with pending := s.pending + 1 }
  return TypeTable.pending

/-- Keeps a node pending in a lenient sweep and reports it in the strict one. -/
def pendingOrFail (id : NodeId) : AnalysisM TypeId := do
  if !(← get).strict then pendingType
  else
    let t ← tree
    report (.notInferable (t.kind id).name) (t.span id)
    fail id

/-- Completes a statement once all of its parts are known. -/
def settle (id : NodeId) (parts : List TypeId) : AnalysisM TypeId := do
  if ← parts.allM isResolved then finish id TypeTable.void else pendingType

/-! ## Conversions -/

/-- Wraps an expression in a completed implicit cast. -/
def castNode (inner : NodeId) (t : TypeId) : AnalysisM NodeId := do
  let span ← spanOf inner
  let c ← addNode { kind := .cast, span, flags := .implicit, a := inner, valueType := t, completed := true }
  adopt c inner
  return c

/-- The value in a form acceptable as `want`, cast when a conversion exists and reported when none does. The flag is false
only while a side is pending. -/
def coerce (value : NodeId) (want : TypeId) (code : Code) : AnalysisM (Bool × NodeId) := do
  let got := (← node value).valueType
  if !(← isResolved got) || !(← isResolved want) then return (false, value)
  let ts ← types
  if ts.accepts want got then return (true, value)
  if ts.implicitCast got want then return (true, ← castNode value want)
  report (.cannotUse code (ts.format got) (ts.format want)) (← spanOf value)
  return (true, value)

end Analysis

end TreeCompiler
