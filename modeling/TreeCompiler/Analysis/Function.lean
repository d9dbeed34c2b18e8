import TreeCompiler.Analysis.TypeExpr

/-!
# Types of functions and variables

* `funcType` : the type of a function, pending while a parameter or the result is not known;
* `funcResult` : the declared result, or the type of the first return whose value is known, which is then kept;
* `varTypeStep` : the type of a variable, found from its declaration on demand.
-/

namespace TreeCompiler.Analysis

def funcInfo (fn : SymbolId) : AnalysisM FuncInfo := do
  match (← get).funcs.get? fn with
  | some info => return info
  | none => throw .brokenReference

def modifyFunc (fn : SymbolId) (f : FuncInfo → FuncInfo) : AnalysisM Unit := do
  let info ← funcInfo fn
  modify fun s => { s with funcs := s.funcs.insert fn (f info) }

/-- A parameter without annotation is dynamic. -/
def paramType (rec : Resolver) (p : NodeId) : AnalysisM TypeId := do
  let pn ← node p
  let t ← if pn.a = 0 then pure TypeTable.dynamic else rec.typeExpr pn.a
  if ← isResolved t then
    if let some sym := (← get).result.decls.get? p then setSymbolType sym t
    discard <| finish p t
  return t

def paramList? (rec : Resolver) : List NodeId → AnalysisM (Option (List TypeId))
  | [] => return some []
  | p :: rest => do
    let t ← paramType rec p
    if !(← isResolved t) then return none
    return (← paramList? rec rest).map (t :: ·)

/-- Resolves the parameter types of a function; false while one is not known. -/
def paramTypes (rec : Resolver) (fn : SymbolId) : AnalysisM Bool := do
  let info ← funcInfo fn
  if info.signed then return true
  let n ← node info.node
  let some params ← paramList? rec n.list | return false
  modifyFunc fn fun i => { i with params, variadic := n.flags.has .variadic, signed := true }
  return true

/-- The type of the first return whose value is known; a return without value is void. -/
def firstReturn (rec : Resolver) : List NodeId → AnalysisM TypeId
  | [] => return TypeTable.pending
  | r :: rest => do
    let value := (← node r).a
    if value = 0 then return TypeTable.void
    let t ← rec.resolve value
    if ← isResolved t then return t
    firstReturn rec rest

def funcResult (rec : Resolver) (fn : SymbolId) : AnalysisM TypeId := do
  let info ← funcInfo fn
  if ← isResolved info.result then return info.result
  let keep (t : TypeId) : AnalysisM TypeId := do
    if ← isResolved t then modifyFunc fn fun i => { i with result := t }
    return t
  let n ← node info.node
  if n.a ≠ 0 then keep (← rec.typeExpr n.a)
  else if info.returns.isEmpty then keep TypeTable.void
  else if ← isTyping fn then return TypeTable.pending
  else whileTyping fn do keep (← firstReturn rec info.returns)

def funcType (rec : Resolver) (fn : SymbolId) : AnalysisM TypeId := do
  let sym ← symbol fn
  let some info := (← get).funcs.get? fn | internal sym.decl (.noBodyInfo (← symbolName fn))
  if info.signed && (← isResolved sym.type) then return sym.type
  if !(← paramTypes rec fn) then return TypeTable.pending
  let result ← funcResult rec fn
  if !(← isResolved result) then return TypeTable.pending
  let info ← funcInfo fn
  let t ← withTypes (·.func info.params info.variadic result)
  setSymbolType fn t
  return t

/-- The annotation of a let, or else the type of its initializer; without either it is dynamic. -/
def letType (rec : Resolver) (id : NodeId) : AnalysisM TypeId := do
  let n ← node id
  let symId := ((← get).result.decls.get? id).getD 0
  let sym ← symbol symId
  if ← isResolved sym.type then return sym.type
  if ← isTyping symId then return TypeTable.pending
  whileTyping symId do
    let t ← if n.a ≠ 0 then rec.typeExpr n.a
      else if n.b ≠ 0 then rec.resolve n.b
      else pure TypeTable.dynamic
    if ← isResolved t then setSymbolType symId t
    return t

/-- Value and key types that an iterable yields: arrays and strings count by int, maps by their key. -/
def foreachTypes (rec : Resolver) (id : NodeId) : AnalysisM (TypeId × TypeId) := do
  let n ← node id
  let it ← rec.resolve n.a
  if !(← isResolved it) then return (it, it)
  let t ← bareType it
  let (value, key) ← match t.shape with
    | .array elem => pure (elem, TypeTable.int)
    | .map key elem => pure (elem, key)
    | .scalar .string => pure (TypeTable.string, TypeTable.int)
    | .scalar .dynamic => pure (TypeTable.dynamic, TypeTable.dynamic)
    | _ => do
      report (.notIterable (← typeText it)) (← spanOf n.a)
      pure (TypeTable.dynamic, TypeTable.dynamic)
  let r := (← get).result
  if let some sym := r.decls.get? id then setSymbolType sym value
  if let some sym := r.keys.get? id then setSymbolType sym key
  return (value, key)

/-- The type of the payload that a match arm binds. -/
def armBindType (rec : Resolver) (arm : NodeId) : AnalysisM TypeId := do
  let some m := (← get).matchOf.get? arm | return TypeTable.dynamic
  let st ← rec.resolve (← node m).a
  if !(← isResolved st) then return st
  let name := (← node arm).name
  let t := match (← typeInfo st).shape with
    | .union variants =>
      match variants.find? (fun f => f.name == name) with
      | some f => if f.type = 0 then TypeTable.dynamic else f.type
      | none => TypeTable.dynamic
    | _ => TypeTable.dynamic
  if let some sym := (← get).result.decls.get? arm then setSymbolType sym t
  return t

def varTypeStep (rec : Resolver) (id : SymbolId) : AnalysisM TypeId := do
  let sym ← symbol id
  if ← isResolved sym.type then return sym.type
  let captured : Bool := match sym.storage with
    | .captured _ => sym.origin ≠ 0
    | _ => false
  if captured then
    let t ← rec.varType sym.origin
    if ← isResolved t then setSymbolType id t
    return t
  if sym.decl = 0 then return TypeTable.pending
  match (← tree).kind sym.decl with
  | .letDecl => letType rec sym.decl
  | .param => paramType rec sym.decl
  | .eachLoop =>
    let (value, key) ← foreachTypes rec sym.decl
    return if (← get).result.keys.get? sym.decl = some id then key else value
  | .matchArm => armBindType rec sym.decl
  | _ => return TypeTable.pending

end TreeCompiler.Analysis
