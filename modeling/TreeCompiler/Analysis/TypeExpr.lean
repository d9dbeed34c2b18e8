import TreeCompiler.Analysis.Instance

/-!
# Types that are written down

`typeExprStep` evaluates a type expression in the scope it was declared in; after an error it is dynamic. `typeOfSymbol`
is the type that a type symbol stands for: an alias shares the type of its target, any other declaration makes a named
type. `variantTypes` are the payload and the union of a variant.
-/

namespace TreeCompiler.Analysis

/-- Runs a step while a symbol is marked as being typed. -/
def whileTyping {α : Type} (sym : SymbolId) (step : AnalysisM α) : AnalysisM α := do
  modify fun s => { s with typing := s.typing.insert sym () }
  let v ← step
  modify fun s => { s with typing := s.typing.erase sym }
  return v

def isTyping (sym : SymbolId) : AnalysisM Bool := return (← get).typing.contains sym

def namedOf (base : TypeId) (sym : SymbolId) (name : String) (args : List TypeId) : AnalysisM TypeId := do
  match (← types).named? base sym name args with
  | some (id, types) =>
    modifyResult fun r => { r with types }
    return id
  | none => throw (.unknownType base)

/-- The type of a declared type; a named one takes over the field defaults of its structure. -/
def declaredType (rec : Resolver) (id : SymbolId) (n : Node) (name : String) : AnalysisM TypeId := do
  let base ← rec.typeExpr n.a
  let sym ← symbol id
  if !(← isResolved base) || (← isResolved sym.type) then return base
  if n.flags.has .aliased then
    setSymbolType id base
    return base
  let t ← namedOf base id name sym.templateArgs
  setSymbolType id t
  let r := (← get).result
  match (r.types.underlying? base).bind r.fieldDefaults.get? with
  | some defaults => modifyResult fun r => { r with fieldDefaults := r.fieldDefaults.insert t defaults }
  | none => pure ()
  return t

/-- Payload types of the variants, or the first type that is not known yet. -/
def variantFields (rec : Resolver) : List NodeId → AnalysisM (Except TypeId (List TyField))
  | [] => return .ok []
  | v :: rest => do
    let vn ← node v
    let payload ← if vn.a = 0 then pure 0 else rec.typeExpr vn.a
    if vn.a ≠ 0 && !(← isResolved payload) then return .error payload
    discard <| finish v TypeTable.void
    return (← variantFields rec rest).map ({ name := vn.name, type := payload } :: ·)

def unionType (rec : Resolver) (id : SymbolId) (n : Node) (name : String) : AnalysisM TypeId := do
  match ← variantFields rec n.list with
  | .error t => return t
  | .ok variants =>
    let base ← withTypes (·.union variants)
    let t ← namedOf base id name (← symbol id).templateArgs
    setSymbolType id t
    return t

def typeOfSymbol (rec : Resolver) (id : SymbolId) : AnalysisM TypeId := do
  let sym ← symbol id
  if (← isResolved sym.type) || sym.decl = 0 then return sym.type
  let name ← symbolName id
  if ← isTyping id then
    report (.recursiveType name) sym.span
    setSymbolType id TypeTable.dynamic
    return TypeTable.dynamic
  whileTyping id do
    let n ← node sym.decl
    match n.kind with
    | .typeDecl => declaredType rec id n name
    | .unionDecl => unionType rec id n name
    | k => internal sym.decl (.declaredBy name k.name)

/-- The payload type of a variant, 0 when it has none, and its union. -/
def variantTypes (rec : Resolver) (id : SymbolId) : AnalysisM (TypeId × TypeId) := do
  let v ← symbol id
  let union ← typeOfSymbol rec v.set
  if !(← isResolved union) then return (0, union)
  let u ← typeInfo union
  match u.shape with
  | .union variants =>
    match variants[v.tag]? with
    | none => internal v.decl (.strayVariant (← symbolName id))
    | some field =>
      if !(← isResolved (← symbol id).type) then
        let t ← if field.type = 0 then pure union else withTypes (·.func [field.type] false union)
        setSymbolType id t
      return (field.type, union)
  | _ => internal v.decl (.strayVariant (← symbolName id))

def namedType (rec : Resolver) (id : NodeId) (n : Node) : AnalysisM TypeId := do
  if !(← typeArgsReady rec n) then return TypeTable.pending
  let some symId ← lookupName id n | return TypeTable.dynamic
  let sym ← symbol symId
  let shown := n.qualifiedName
  if sym.kind ≠ .type then
    reportWith (.notAType shown) n.span [{ span := sym.span, text := "declared here" }]
    return TypeTable.dynamic
  match sym.template with
  | none =>
    if !n.typeArgs.isEmpty then
      report (.typeNotGeneric shown) n.span
      return TypeTable.dynamic
    typeOfSymbol rec symId
  | some tpl =>
    let args := (← typeArgs? rec n).getD []
    if args.length ≠ tpl.params.length then
      report (.typeParamCount shown tpl.params.length args.length) n.span
      return TypeTable.dynamic
    typeOfSymbol rec (← instantiate rec symId args)

/-- Types and default values of the fields of a struct type, none while one is not known. `seen` are the names before. -/
def structFields (rec : Resolver) (seen : List String) : List NodeId → AnalysisM (Option (List (TyField × NodeId)))
  | [] => return some []
  | f :: rest => do
    let fn ← node f
    let t ← rec.typeExpr fn.a
    if !(← isResolved t) then return none
    if seen.contains fn.name then report (.fieldDeclaredTwice fn.name) fn.span
    if fn.b ≠ 0 then
      if !(← isResolved (← rec.resolve fn.b)) then return none
      let (_, value) ← coerce (← node f).b t .assignMismatch
      modifyNode f fun n => { n with b := value }
    let default := (← node f).b
    discard <| finish f t
    return (← structFields rec (fn.name :: seen) rest).map (({ name := fn.name, type := t }, default) :: ·)

def structType (rec : Resolver) (n : Node) : AnalysisM TypeId := do
  let some fields ← structFields rec [] n.list | return TypeTable.pending
  let t ← withTypes (·.struct (fields.map (·.1)))
  if !(← get).result.fieldDefaults.contains t then
    modifyResult fun r => { r with fieldDefaults := r.fieldDefaults.insert t (fields.map (·.2)) }
  return t

def typeExprStep (rec : Resolver) (id : NodeId) : AnalysisM TypeId := do
  if id = 0 then return TypeTable.void
  let n ← node id
  if n.completed then return n.valueType
  match n.kind with
  | .typeName => finish id (← namedType rec id n)
  | .typeArray =>
    let elem ← rec.typeExpr n.a
    if !(← isResolved elem) then return ← pendingType
    finish id (← withTypes (·.array elem))
  | .typeMap =>
    let key ← rec.typeExpr n.a
    let elem ← rec.typeExpr n.b
    if !(← isResolved key) || !(← isResolved elem) then return ← pendingType
    finish id (← withTypes (·.map key elem))
  | .typeTuple =>
    let some elems ← typeList? rec n.list | pendingType
    finish id (← withTypes (·.tuple elems))
  | .typeFunc =>
    let params ← typeList? rec n.list
    let result ← rec.typeExpr n.a
    match params, ← isResolved result with
    | some params, true => finish id (← withTypes (·.func params (n.flags.has .variadic) result))
    | _, _ => pendingType
  | .typeStruct => finish id (← structType rec n)
  | k =>
    report (.expectedType k.name) n.span
    fail id

end TreeCompiler.Analysis
