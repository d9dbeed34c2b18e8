import TreeCompiler.Analysis.Expr

/-!
# Statements and declarations

A statement is void once all of its parts are known. `resolveStep` is the entry for every node: completed nodes keep
their type, and a node that is reached again while it is being resolved is pending.
-/

namespace TreeCompiler.Analysis

def resolveList (rec : Resolver) (id : NodeId) (list : List NodeId) : AnalysisM TypeId := do
  settle id (← list.mapM rec.resolve)

/-- The path of an import as it is written. -/
def importText (n : Node) : String := (if n.fromGlobal then "::" else "") ++ String.intercalate "::" n.path

def resolveImport (id : NodeId) (n : Node) : AnalysisM TypeId := do
  let u : Import := { path := n.path, fromGlobal := n.fromGlobal, span := n.span }
  if ((← scopes).resolveImport? (← scopeOf id) u).isNone then report (.unknownImport (importText n)) n.span
  finish id TypeTable.void

/-- The type of a condition, which must be bool. -/
def condition (rec : Resolver) (cond : NodeId) : AnalysisM TypeId := do
  let t ← rec.resolve cond
  if ← isResolved t then
    let kind := (← types).kind t
    if kind ≠ .bool && kind ≠ .dynamic then report (.conditionType (← typeText t)) (← spanOf cond)
  return t

def resolveLet (rec : Resolver) (id : NodeId) (n : Node) : AnalysisM TypeId := do
  if n.isGeneric then return ← finish id TypeTable.void
  match (← get).result.decls.get? id with
  | none =>
    discard <| rec.resolve n.b
    finish id TypeTable.void
  | some sym =>
    let t ← letType rec id
    if n.b = 0 then return ← settle id [t]
    let init ← rec.resolve n.b
    if !(← isResolved t) || !(← isResolved init) then return ← pendingType
    coerceSlot (.b id) (← symbol sym).type .assignMismatch
    finish id TypeTable.void

/-- A declared function has its own type; a generic or refused one is void. -/
def resolveFunc (rec : Resolver) (id : NodeId) (n : Node) : AnalysisM TypeId := do
  let funcs := (← get).result.funcs
  match if n.isGeneric then none else funcs.get? id with
  | none => finish id TypeTable.void
  | some fn => finishRef id (← funcType rec fn)

def resolveTypeDecl (rec : Resolver) (id : NodeId) (n : Node) : AnalysisM TypeId := do
  let decls := (← get).result.decls
  match if n.isGeneric then none else decls.get? id with
  | none => finish id TypeTable.void
  | some sym => settle id [← typeOfSymbol rec sym]

/-- Checks a return against the result of its function. An inferred result admits no casts. -/
def checkReturn (id : NodeId) (fn : SymbolId) (inferred : Bool) (want got : TypeId) : AnalysisM Unit := do
  let n ← node id
  let t ← types
  let isVoid : Bool := t.kind want = .void
  if n.a = 0 then
    if !isVoid then report (.missingReturnValue (t.format want)) n.span
  else if isVoid then report (.returnsNothing (← symbolName fn)) (← spanOf n.a)
  else if inferred then
    if !t.accepts want got then
      report (.returnDisagrees (t.format got) (t.format want) (← symbolName fn)) (← spanOf n.a)
  else coerceSlot (.a id) want .returnMismatch

def resolveReturn (rec : Resolver) (id : NodeId) (n : Node) : AnalysisM TypeId := do
  let fs := (← scopes).funcScope (← scopeOf id)
  if fs = 0 then
    discard <| rec.resolve n.a
    return ← finish id TypeTable.void
  let fn := (← scopeInfo fs).func
  let want ← funcResult rec fn
  let got ← rec.resolve (← node id).a
  if !(← isResolved want) || !(← isResolved got) then return ← pendingOrFail id
  let inferred : Bool := (← node (← funcInfo fn).node).a = 0
  checkReturn id fn inferred want got
  finish id TypeTable.void

def resolveForeach (rec : Resolver) (id : NodeId) (n : Node) : AnalysisM TypeId := do
  let (value, _) ← foreachTypes rec id
  let ready ← isResolved value
  let body ← rec.resolve n.b
  if ready then settle id [body] else pendingOrFail id

/-! ## Matches -/

/-- The name of the arm that takes every remaining variant. -/
def defaultArm : String := "_"

/-- The arms met so far: the first arm of each tag, and whether a default is among them. -/
structure Arms where
  seen : List (Nat × NodeId) := []
  hasDefault : Bool := false
  done : Bool := true
deriving Inhabited

/-- The tag of an arm, -1 for the default and for a name that is no variant. -/
def checkArm (st : TypeId) (variants : List TyField) (arms : Arms) (arm : NodeId) : AnalysisM (Int × Arms) := do
  let cn ← node arm
  if cn.name = defaultArm then
    if arms.hasDefault then report .duplicateDefault cn.span
    return (-1, { arms with hasDefault := true })
  match variants.findIdx? (·.name == cn.name), variants.find? (·.name == cn.name) with
  | some tag, some v =>
    match arms.seen.lookup tag with
    | some first =>
      reportWith (.variantMatchedTwice cn.name) cn.span [{ span := ← spanOf first, text := "first arm here" }]
      return (tag, arms)
    | none =>
      if cn.bind ≠ "" && v.type = 0 then report (.noPayloadToBind cn.name) cn.span
      return (tag, { arms with seen := arms.seen ++ [(tag, arm)] })
  | _, _ =>
    report (.noVariant (← typeText st) cn.name) cn.span
    return (-1, arms)

def resolveArm (rec : Resolver) (st : TypeId) (variants : List TyField) (arms : Arms) (arm : NodeId) :
    AnalysisM Arms := do
  let (tag, arms) ← checkArm st variants arms arm
  modifyResult fun r => { r with cases := r.cases.insert arm tag }
  let ready ← isResolved (← rec.resolve arm)
  return { arms with done := arms.done && ready }

/-- Each arm names a variant at most once, and without a default the arms cover all of them. -/
def resolveMatch (rec : Resolver) (id : NodeId) (n : Node) : AnalysisM TypeId := do
  let st ← rec.resolve n.a
  let touch : AnalysisM Unit := n.list.forM fun c => discard <| rec.resolve c
  if !(← isResolved st) then
    touch
    return ← pendingOrFail id
  match (← typeInfo st).shape with
  | .union variants =>
    let arms ← n.list.foldlM (resolveArm rec st variants) {}
    if !arms.hasDefault && arms.seen.length < variants.length then
      let missing := variants.zipIdx.filter fun (_, i) => (arms.seen.lookup i).isNone
      report (.unhandledVariants (← typeText st) (String.intercalate ", " (missing.map (·.1.name)))) n.span
    if arms.done then finish id TypeTable.void else pendingType
  | _ =>
    report (.cannotMatch (← typeText st)) (← spanOf n.a)
    touch
    fail id

/-! ## Every kind of node -/

def resolveKind (rec : Resolver) (id : NodeId) (n : Node) : AnalysisM TypeId := do
  match n.kind with
  | .file | .nameSpace | .block | .whereClause => resolveList rec id n.list
  | .importing => resolveImport id n
  | .letDecl => resolveLet rec id n
  | .func => resolveFunc rec id n
  | .typeDecl | .unionDecl => resolveTypeDecl rec id n
  | .ifStmt =>
    let c ← condition rec n.a
    settle id [c, ← rec.resolve n.b, ← rec.resolve n.c]
  | .whileLoop =>
    let c ← condition rec n.a
    settle id [c, ← rec.resolve n.b]
  | .forLoop =>
    let init ← rec.resolve n.a
    let c ← if n.b = 0 then pure TypeTable.bool else condition rec n.b
    settle id [init, c, ← rec.resolve n.c, ← rec.resolve n.d]
  | .eachLoop => resolveForeach rec id n
  | .matchStmt => resolveMatch rec id n
  | .matchArm | .exprStmt => settle id [← rec.resolve n.a]
  | .breakStmt | .continueStmt => finish id TypeTable.void
  | .returnStmt => resolveReturn rec id n
  | k => if k.isType then typeExprStep rec id else resolveExpr rec id n

def resolveStep (rec : Resolver) (id : NodeId) : AnalysisM TypeId := do
  if id = 0 then return TypeTable.void
  let n ← node id
  if n.completed then return n.valueType
  if (← get).resolving.contains id then return ← pendingType
  modify fun s => { s with resolving := s.resolving.insert id () }
  let t ← resolveKind rec id n
  modify fun s => { s with resolving := s.resolving.erase id }
  return t

/-- The functions of resolution with a bound on the depth of their calls. -/
def resolver : Nat → Resolver
  | 0 =>
    { resolve := fun _ => throw .unbounded
      typeExpr := fun _ => throw .unbounded
      varType := fun _ => throw .unbounded }
  | fuel + 1 =>
    { resolve := fun id => resolveStep (resolver fuel) id
      typeExpr := fun id => typeExprStep (resolver fuel) id
      varType := fun id => varTypeStep (resolver fuel) id }

end TreeCompiler.Analysis
