import TreeCompiler.Analysis.State

/-!
# Declaring names

The first pass enters every name of a unit into its scope, gives variables their storage and every node the scope it is
read in. Each step takes the pass itself as an argument and hands it the children; `declare` closes the circle. A node
that is still being declared is skipped, so the depth of the pass is bounded by the number of nodes.
-/

namespace TreeCompiler.Analysis

def withScope (scope : ScopeId) (step : AnalysisM Unit) : AnalysisM Unit := do
  let saved := (← get).scope
  modify fun s => { s with scope }
  step
  modify fun s => { s with scope := saved }

/-- Runs a step in a new block scope. The frame slots taken inside are given back at its end. -/
def inBlock (id : NodeId) (step : AnalysisM Unit) : AnalysisM ScopeId := do
  let span ← spanOf id
  let parent := (← get).scope
  let block ← withScopes (·.addScope { kind := .block, parent, span })
  modifyScopes (·.enterBlock block)
  withScope block step
  modifyScopes (·.leaveBlock block)
  return block

def inLoop (label : String) (step : AnalysisM Unit) : AnalysisM Unit := do
  modify fun s => { s with loops := label :: s.loops }
  step
  modify fun s => { s with loops := s.loops.tail }

/-- Runs a step outside of every loop. -/
def outsideLoops (step : AnalysisM Unit) : AnalysisM Unit := do
  let saved := (← get).loops
  modify fun s => { s with loops := [] }
  step
  modify fun s => { s with loops := saved }

def reportRedeclared (name : String) (span : Span) (prev : SymbolId) : AnalysisM Unit := do
  let p ← symbol prev
  let notes := if p.span = span then [] else [{ span := p.span, text := "previous declaration here" }]
  reportWith (.redeclared name) span notes

/-- The storage of a new variable: a frame slot inside a function unless it is static, a global slot otherwise. -/
def newStorage (static : Bool) : AnalysisM Storage := do
  let s ← get
  match if static then none else s.result.scopes.allocLocal? s.scope with
  | some (storage, scopes) =>
    modifyScopes fun _ => scopes
    return storage
  | none => withScopes (·.allocGlobal)

def inFunction : AnalysisM Bool := do
  let s ← get
  return s.result.scopes.funcScope s.scope ≠ 0

/-- Binds a symbol in a scope; on a clash the error is the symbol that has the name. -/
def bindIn (scope : ScopeId) (sym : Symbol) : AnalysisM (Except SymbolId SymbolId) := do
  match (← scopes).declare scope sym with
  | .ok (id, scopes) =>
    modifyScopes fun _ => scopes
    return .ok id
  | .error prev => return .error prev

/-- Binds a symbol in the current scope. -/
def bindSymbol (sym : Symbol) : AnalysisM (Except SymbolId SymbolId) := do bindIn (← get).scope sym

def setDecl (id : NodeId) (sym : SymbolId) : AnalysisM Unit :=
  modifyResult fun r => { r with decls := r.decls.insert id sym }

/-- Binds a variable that a loop or a match arm introduces. -/
def declareLocal (owner : NodeId) (name : String) : AnalysisM SymbolId := do
  let nameId ← internName name
  let span ← spanOf owner
  let storage ← newStorage false
  let seq ← if ← inFunction then seqOf owner else pure 0
  match ← bindSymbol { name := nameId, kind := .var, decl := owner, span, type := TypeTable.pending, storage, seq } with
  | .ok id => return id
  | .error prev =>
    reportRedeclared name span prev
    return prev

/-- The native handle of a function, 0 after a report. -/
def loadNative (n : Node) : AnalysisM Nat := do
  match n.native, (← get).options.loader with
  | none, _ =>
    report (.nativeUnbound n.name) n.span
    return 0
  | some x, none =>
    report (.nativeNoLoader x.symbol x.library) n.span
    return 0
  | some x, some registry =>
    match registry.find x.library x.symbol with
    | .ok h => return h
    | .error e =>
      report (.nativeNotLoaded x.symbol x.library e.message) n.span
      return 0

def checkLoopControl (n : Node) : AnalysisM Unit := do
  let what := if n.kind = .continueStmt then "continue" else "break"
  let loops := (← get).loops
  if loops.isEmpty then report (.loopControlOutside what) n.span
  else if n.label ≠ "" && !loops.contains n.label then report (.unknownLabel what n.label) n.span

section Steps

variable (self : NodeId → AnalysisM Unit)

/-- Declares a branch or loop body; a statement that is no block gets a scope of its own. -/
def declareNested (id : NodeId) : AnalysisM Unit := do
  if id = 0 then return
  if (← tree).kind id = .block then self id
  else
    let _ ← inBlock id (self id)

def declareParam (fs : ScopeId) (p : NodeId) (i : Nat) : AnalysisM Unit := do
  let pn ← node p
  setScope p fs
  self pn.a
  let name ← internName pn.name
  let seq ← seqOf p
  match ← bindIn fs { name, kind := .var, decl := p, span := pn.span, type := TypeTable.pending,
                      storage := .frame (Storage.argOffset i), seq } with
  | .ok sym => setDecl p sym
  | .error prev => reportRedeclared pn.name pn.span prev

/-- Opens the function scope, binds the parameters and declares the body. The outermost block of the body shares the
scope of the parameters. -/
def declareFuncBody (id : NodeId) (fn : SymbolId) : AnalysisM Unit := do
  let n ← node id
  let parent := (← get).scope
  let fs ← withScopes (·.addScope
    { kind := .function, parent, span := n.span, func := fn, anonymous := n.name = "" })
  modifyScopes fun tab => tab.modifySymbol fn fun s => { s with body := fs }
  modify fun s => { s with funcs := s.funcs.insert fn { node := id }, bodies := s.bodies.push fn }
  outsideLoops <| withScope fs do
    for (p, i) in n.list.zipIdx do declareParam self fs p i
    self n.a
    self n.c
    if n.b ≠ 0 then
      let body ← node n.b
      setScope n.b fs
      if body.kind = .block then body.list.forM self else self n.b

def declareLet (id : NodeId) (n : Node) : AnalysisM Unit := do
  let name ← internName n.name
  let attrs := Attrs.ofFlags n.flags
  let static := attrs.has .static
  let base : Symbol := { name, kind := .var, attrs, decl := id, span := n.span, type := TypeTable.pending }
  let sym ← if n.isGeneric then pure { base with template := some { params := n.params } }
    else do
      let storage ← newStorage static
      let seq ← if (← inFunction) && !static then seqOf id else pure 0
      pure { base with storage, seq }
  match ← bindSymbol sym with
  | .error prev => reportRedeclared n.name n.span prev
  | .ok symId =>
    setDecl id symId
    if n.isGeneric then return
    if static && (← inFunction) then
      modifyResult fun r => { r with statics := r.statics ++ [{ symbol := symId, init := n.b }] }
    self n.a
    self n.b

def declareFunc (id : NodeId) (n : Node) : AnalysisM Unit := do
  let name ← internName n.name
  let template := if n.isGeneric then some { params := n.params } else none
  let handle ← if n.flags.has .native then loadNative n else pure 0
  let sym : Symbol :=
    { name, kind := .function, attrs := Attrs.ofFlags n.flags, decl := id, span := n.span, type := TypeTable.pending,
      template, handle }
  let s ← get
  match s.result.scopes.declareCandidate s.scope sym with
  | .error prev => reportRedeclared n.name n.span prev
  | .ok (symId, scopes) =>
    modifyResult fun r => { r with scopes, funcs := r.funcs.insert id symId }
    if !n.isGeneric then declareFuncBody self id symId

def declareLiteral (id : NodeId) (n : Node) : AnalysisM Unit := do
  let name ← internName "<lambda>"
  let scope := (← get).scope
  let sym ← withScopes (·.addSymbol
    { name, kind := .function, scope, decl := id, span := n.span, type := TypeTable.pending })
  modifyResult fun r => { r with funcs := r.funcs.insert id sym }
  declareFuncBody self id sym

def declareReturn (id : NodeId) (n : Node) : AnalysisM Unit := do
  let s ← get
  let fs := s.result.scopes.funcScope s.scope
  if fs = 0 then report .returnOutside n.span
  else
    let fn := (← scopeInfo fs).func
    match s.funcs.get? fn with
    | some info => modify fun s => { s with funcs := s.funcs.insert fn { info with returns := info.returns ++ [id] } }
    | none => pure ()
  self n.a

def declareTypeDecl (id : NodeId) (n : Node) : AnalysisM Unit := do
  let name ← internName n.name
  let template := if n.isGeneric then some { params := n.params } else none
  match ← bindSymbol { name, kind := .type, attrs := Attrs.ofFlags n.flags, decl := id, span := n.span,
                       type := TypeTable.pending, template } with
  | .error prev => reportRedeclared n.name n.span prev
  | .ok sym =>
    setDecl id sym
    if !n.isGeneric then self n.a

def declareVariant (union : SymbolId) (ns : ScopeId) (attrs : Attrs) (v : NodeId) (tag : Nat) : AnalysisM Unit := do
  let vn ← node v
  setScope v (← get).scope
  self vn.a
  let name ← internName vn.name
  match (← scopes).declare ns { name, kind := .variant, attrs, decl := v, span := vn.span, type := TypeTable.pending,
                                set := union, tag } with
  | .ok (_, scopes) => modifyScopes fun _ => scopes
  | .error prev => reportRedeclared vn.name vn.span prev

/-- Declares the union type and a namespace of the same name with a constructor for each variant. -/
def declareUnion (id : NodeId) (n : Node) : AnalysisM Unit := do
  let name ← internName n.name
  let attrs := Attrs.ofFlags n.flags
  match ← bindSymbol { name, kind := .type, attrs, decl := id, span := n.span, type := TypeTable.pending } with
  | .error prev => reportRedeclared n.name n.span prev
  | .ok sym =>
    setDecl id sym
    let parent := (← get).scope
    let ns ← withScopes (·.openNamespace parent n.name n.span)
    for (v, i) in n.list.zipIdx do declareVariant self sym ns attrs v i

def declareArm (id : NodeId) : AnalysisM Unit := do
  let n ← node id
  setScope id (← get).scope
  let _ ← inBlock id do
    if n.bind ≠ "" then setDecl id (← declareLocal id n.bind)
    declareNested self n.a

def declareMatch (id : NodeId) (n : Node) : AnalysisM Unit := do
  self n.a
  for c in n.list do
    discard <| node c
    modify fun s => { s with matchOf := s.matchOf.insert c id }
    declareArm self c

def declareFor (id : NodeId) (n : Node) : AnalysisM Unit := do
  let _ ← inBlock id do
    self n.a
    self n.b
    self n.c
    inLoop n.label (declareNested self n.d)

def declareForeach (id : NodeId) (n : Node) : AnalysisM Unit := do
  self n.a
  let _ ← inBlock id do
    setDecl id (← declareLocal id n.name)
    if n.bind ≠ "" then
      let key ← declareLocal id n.bind
      modifyResult fun r => { r with keys := r.keys.insert id key }
    inLoop n.label (declareNested self n.b)

def declareBlock (id : NodeId) (n : Node) : AnalysisM Unit := do
  let block ← inBlock id (n.list.forM self)
  modify fun s => { s with nodeScope := s.nodeScope.insert id block }

def declareNamespace (n : Node) : AnalysisM Unit := do
  let parent := (← get).scope
  let ns ← withScopes (·.openNamespace parent n.name n.span)
  withScope ns (n.list.forM self)

def declareImport (n : Node) : AnalysisM Unit := do
  let scope := (← get).scope
  modifyScopes fun tab => tab.modifyScope scope fun s =>
    { s with imports := s.imports ++ [{ path := n.path, fromGlobal := n.fromGlobal, span := n.span }] }

def declareKind (id : NodeId) (n : Node) : AnalysisM Unit := do
  match n.kind with
  | .file => n.list.forM self
  | .nameSpace => declareNamespace self n
  | .importing => declareImport n
  | .block => declareBlock self id n
  | .letDecl => declareLet self id n
  | .func => if n.name = "" then declareLiteral self id n else declareFunc self id n
  | .typeDecl => declareTypeDecl self id n
  | .unionDecl => declareUnion self id n
  | .ifStmt =>
    self n.a
    declareNested self n.b
    declareNested self n.c
  | .whileLoop =>
    self n.a
    inLoop n.label (declareNested self n.b)
  | .forLoop => declareFor self id n
  | .eachLoop => declareForeach self id n
  | .matchStmt => declareMatch self id n
  | .breakStmt | .continueStmt => checkLoopControl n
  | .returnStmt => declareReturn self id n
  | .intLit => discard <| finish id TypeTable.int
  | .realLit => discard <| finish id TypeTable.real
  | .stringLit => discard <| finish id TypeTable.string
  | .boolLit => discard <| finish id TypeTable.bool
  | _ => n.children.forM self

def declareStep (id : NodeId) : AnalysisM Unit := do
  if id = 0 || (← get).declaring.contains id then return
  let n ← node id
  modify fun s => { s with declaring := s.declaring.insert id () }
  setScope id (← get).scope
  declareKind self id n
  modify fun s => { s with declaring := s.declaring.erase id }

end Steps

/-- The declaration pass with a bound on its depth. -/
def declareWith : Nat → NodeId → AnalysisM Unit
  | 0, _ => throw .unbounded
  | fuel + 1, id => declareStep (declareWith fuel) id

/-- Nested calls are at distinct nodes, so the number of nodes bounds their depth. -/
def declare (id : NodeId) : AnalysisM Unit := do declareWith ((← tree).size + 2) id

end TreeCompiler.Analysis
