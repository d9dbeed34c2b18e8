import TreeCompiler.Analysis.Call

/-!
# Expressions

Each function gives an expression its type once the types of its parts are known, and leaves it pending until then.
After an error the expression is dynamic, so that what surrounds it stays silent.

* `resolveName` : a name used as a value, with the capture rule of `captureName`;
* `rewriteOperator` : an operator over named types becomes a call of the function named after it;
* `balanceOperands` : mixed operands of one operator are cast to a common type.
-/

namespace TreeCompiler.Analysis

/-- Completes a reference to a symbol whose type may still be inferred elsewhere. -/
def finishRef (id : NodeId) (t : TypeId) : AnalysisM TypeId := do
  if ← isResolved t then finish id t else pendingOrFail id

/-! ## Names -/

/-- A variable of another function is replaced by the captured copy of the function literal that uses it. Only literals
capture, and only from the function directly around them. None after a report. -/
def captureName (id : NodeId) (sym : SymbolId) : AnalysisM (Option SymbolId) := do
  let s ← symbol sym
  let movable : Bool := match s.storage with
    | .frame _ | .captured _ => true
    | _ => false
  if !movable then return some sym
  let tab ← scopes
  let use := tab.funcScope (← scopeOf id)
  let owner := tab.funcScope s.scope
  if use = 0 || use = owner then return some sym
  let fn ← scopeInfo use
  let span ← spanOf id
  let name ← symbolName sym
  let notes : List Note := [{ span := s.span, text := "declared here" }]
  if !fn.anonymous then
    reportWith (.captureByFunction (← symbolName fn.func) name) span notes
    return none
  if tab.funcScope fn.parent ≠ owner then
    reportWith (.captureTooFar name) span notes
    return none
  return some (← withScopes (·.capture use sym))

/-- The instance of a generic that is named with its type arguments. None after a report. -/
def explicitInstance (rec : Resolver) (n : Node) (gen : SymbolId) : AnalysisM (Option SymbolId) := do
  let some args ← typeArgs? rec n | return none
  let some tpl := (← symbol gen).template | throw .brokenReference
  if args.length ≠ tpl.params.length then
    report (.typeArgCount n.qualifiedName tpl.params.length args.length) n.span
    return none
  let inst ← instantiate rec gen args
  if (← symbol inst).rejected then
    report (.instanceRejected n.qualifiedName (← typeTexts args)) n.span
    return none
  return some inst

/-- The single function that a name denotes when it is not called. None after a report. -/
def functionValue (rec : Resolver) (id : NodeId) (n : Node) (symId : SymbolId) : AnalysisM (Option SymbolId) := do
  let sym ← symbol symId
  let cands := if sym.kind = .overloads then sym.overloads else [symId]
  let q ← query id
  let tab ← scopes
  let visible := cands.filter (tab.accessible q)
  let isGeneric (c : SymbolId) : Bool := ((tab.symbol? c).map (·.isGeneric)).getD false
  let generic := visible.filter isGeneric
  let plain := visible.filter fun c => !isGeneric c
  let shown := n.qualifiedName
  if !n.typeArgs.isEmpty then
    match generic with
    | [gen] => return ← explicitInstance rec n gen
    | _ =>
      report (.notSingleGeneric shown) n.span
      return none
  match plain, generic with
  | [fn], _ => return some fn
  | [], [] =>
    report (.inaccessible shown) n.span
    return none
  | [], _ =>
    report (.genericAsValue shown) n.span
    return none
  | fns, _ =>
    reportWith (.ambiguousValue shown fns.length) n.span (← candidateNotes fns)
    return none

/-- The variable that a name denotes: a captured copy or an instance where it needs one. -/
def variableValue (rec : Resolver) (id : NodeId) (n : Node) (symId : SymbolId) : AnalysisM (Option SymbolId) := do
  if (← symbol symId).isGeneric then explicitInstance rec n symId else captureName id symId

def resolveName (rec : Resolver) (id : NodeId) (n : Node) : AnalysisM TypeId := do
  if !(← typeArgsReady rec n) then return ← pendingOrFail id
  let some symId ← lookupName id n | fail id
  match (← symbol symId).kind with
  | .var =>
    let some sym ← variableValue rec id n symId | fail id
    bindNode id sym
    finishRef id (← rec.varType sym)
  | .overloads | .function =>
    let some fn ← functionValue rec id n symId | fail id
    bindNode id fn
    finishRef id (← funcType rec fn)
  | .variant =>
    let (payload, union) ← variantTypes rec symId
    if !(← isResolved union) then return ← pendingOrFail id
    if payload ≠ 0 then
      report (.variantNeedsPayload n.qualifiedName) n.span
      return ← fail id
    bindNode id symId
    finish id union
  | _ =>
    report (.typeAsValue n.qualifiedName) n.span
    fail id

/-! ## Operators -/

/-- Turns the operator into a call of the function named after it, resolved like any other call. -/
def rewriteOperator (rec : Resolver) (id : NodeId) (operands : List NodeId) : AnalysisM TypeId := do
  let n ← node id
  let callee ← addNode { kind := .ident, span := n.span, name := n.op.functionName, flags := .implicit }
  adopt callee id
  modifyNode id fun n => { n with kind := .call, op := .none, a := callee, b := 0, list := operands }
  resolveCall rec id

def balanceOperands (id : NodeId) (op : Operator) (l r result : TypeId) : AnalysisM Unit := do
  let t ← types
  if t.kind l = .dynamic || t.kind r = .dynamic || l = r then return
  if op.isComparison && !((t.kind l).isNumeric && (t.kind r).isNumeric) then return
  let common := if op.isComparison then TypeTable.real else result
  if t.kind common ≠ .real && t.kind common ≠ .string then return
  if l ≠ common then castSlot (.a id) common
  if r ≠ common then castSlot (.b id) common

def resolveBinary (rec : Resolver) (id : NodeId) : AnalysisM TypeId := do
  let l ← rec.resolve (← node id).a
  let r ← rec.resolve (← node id).b
  if !(← isResolved l) || !(← isResolved r) then return ← pendingType
  let n ← node id
  let t ← types
  match t.binaryUpper (.ofOperator n.op) l r with
  | some result =>
    balanceOperands id n.op l r result
    finish id result
  | none =>
    if t.isNamed l && t.isNamed r then return ← rewriteOperator rec id [n.a, n.b]
    report (.binaryUndefined n.op.text (t.format l) (t.format r)) n.span
    fail id

def resolveUnary (rec : Resolver) (id : NodeId) : AnalysisM TypeId := do
  let x ← rec.resolve (← node id).a
  if !(← isResolved x) then return ← pendingType
  let n ← node id
  let t ← types
  match t.unaryUpper (.ofOperator n.op) x with
  | some result => finish id result
  | none =>
    if t.isNamed x then return ← rewriteOperator rec id [n.a]
    report (.unaryUndefined n.op.text (t.format x)) n.span
    fail id

/-- Whether the target of an assignment can be assigned, after the reports if not. -/
def assignable (target : NodeId) : AnalysisM Bool := do
  let tn ← node target
  match tn.kind with
  | .ident =>
    let some sym := (← get).result.bindings.get? target | return false
    let s ← symbol sym
    if s.kind ≠ .var then
      report (.cannotAssignName tn.qualifiedName) tn.span
      return false
    if s.attrs.has .const then
      reportWith (.assignConstant tn.qualifiedName) tn.span [{ span := s.span, text := "declared const here" }]
    return true
  | .index =>
    if (← types).kind (← node tn.a).valueType = .string then
      report .immutableString tn.span
      return false
    return true
  | .member => return true
  | _ =>
    report .cannotAssignExpr tn.span
    return false

def resolveAssign (rec : Resolver) (id : NodeId) : AnalysisM TypeId := do
  let target ← rec.resolve (← node id).a
  let value ← rec.resolve (← node id).b
  if !(← isResolved target) || !(← isResolved value) then return ← pendingType
  let n ← node id
  if !(← assignable n.a) then return ← fail id
  let t ← types
  if n.op ≠ .none && (t.binaryUpper (.ofOperator n.op) target value).isNone then
    report (.compoundUndefined n.op.text (t.format target) (t.format value)) n.span
    return ← fail id
  coerceSlot (.b id) target .assignMismatch
  finish id target

/-! ## Access -/

def resolveIndex (rec : Resolver) (id : NodeId) : AnalysisM TypeId := do
  let x ← rec.resolve (← node id).a
  let k ← rec.resolve (← node id).b
  if !(← isResolved x) || !(← isResolved k) then return ← pendingType
  match (← bareType x).shape with
  | .array elem =>
    coerceSlot (.b id) TypeTable.int .indexMismatch
    finish id elem
  | .scalar .string =>
    coerceSlot (.b id) TypeTable.int .indexMismatch
    finish id TypeTable.string
  | .map key elem =>
    coerceSlot (.b id) key .indexMismatch
    finish id elem
  | .tuple elems =>
    let kn ← node (← node id).b
    match if kn.kind = .intLit && 0 ≤ kn.int then elems[kn.int.toNat]? else none with
    | some elem => finish id elem
    | none =>
      report (.tupleIndex (← typeText x) elems.length) kn.span
      fail id
  | .scalar .dynamic => finish id TypeTable.dynamic
  | _ =>
    report (.cannotIndex (← typeText x)) (← spanOf id)
    fail id

def resolveMember (rec : Resolver) (id : NodeId) : AnalysisM TypeId := do
  let x ← rec.resolve (← node id).a
  if !(← isResolved x) then return ← pendingType
  let n ← node id
  let t ← bareType x
  let missing : AnalysisM TypeId := do
    report (.noMember (← typeText x) n.name) n.span
    fail id
  match t.shape with
  | .struct fields =>
    match fields.findIdx? (·.name == n.name), fields.find? (·.name == n.name) with
    | some i, some f =>
      modifyResult fun r => { r with fields := r.fields.insert id i }
      finish id f.type
    | _, _ => missing
  | .scalar .dynamic => finish id TypeTable.dynamic
  | _ => missing

/-! ## Literals -/

/-- Casts every element to the type of the first and yields that type, dynamic for no elements, with the elements as they
stand afterwards. None while one is pending. -/
def unifyElems (rec : Resolver) (elems : List NodeId) : AnalysisM (Option (TypeId × List NodeId)) := do
  let ready ← elems.allM fun e => do isResolved (← rec.resolve e)
  if !ready then return none
  match elems with
  | [] => return some (TypeTable.dynamic, [])
  | first :: rest =>
    let t := (← node first).valueType
    let cast ← rest.mapM fun e => return (← coerce e t .typeMismatch).2
    return some (if t = 0 then TypeTable.dynamic else t, first :: cast)

def resolveArray (rec : Resolver) (id : NodeId) : AnalysisM TypeId := do
  let some (elem, list) ← unifyElems rec (← node id).list | pendingType
  modifyNode id fun n => { n with list }
  finish id (← withTypes (·.array elem))

def resolveMap (rec : Resolver) (id : NodeId) : AnalysisM TypeId := do
  let pairs := (← node id).list
  let entries ← pairs.mapM node
  let keys ← unifyElems rec (entries.map (·.a))
  let values ← unifyElems rec (entries.map (·.b))
  match keys, values with
  | some (key, keys), some (elem, values) =>
    for (p, k, v) in pairs.zip (keys.zip values) do
      modifyNode p fun n => { n with a := k, b := v }
      discard <| finish p (← node v).valueType
    finish id (← withTypes (·.map key elem))
  | _, _ => pendingType

/-- Types of the elements, none as soon as one is pending. -/
def elemTypes? (rec : Resolver) : List NodeId → AnalysisM (Option (List TypeId))
  | [] => return some []
  | e :: rest => do
    let t ← rec.resolve e
    if !(← isResolved t) then return none
    return (← elemTypes? rec rest).map (t :: ·)

def resolveTuple (rec : Resolver) (id : NodeId) : AnalysisM TypeId := do
  let some elems ← elemTypes? rec (← node id).list | pendingType
  finish id (← withTypes (·.tuple elems))

/-- A literal without a type has the struct type of its fields. -/
def anonymousStruct (id : NodeId) (list : List NodeId) : AnalysisM TypeId := do
  let fields ← list.mapM fun f => do
    let fn ← node f
    let type := (← node fn.a).valueType
    discard <| finish f type
    return { name := fn.name, type : TyField }
  finish id (← withTypes (·.struct fields))

/-- Checks a field of a literal against the fields of its type. `seen` are the names set before; the name is added
unless the type lacks it. -/
def structField (st : TypeId) (fields : List TyField) (seen : List String) (f : NodeId) : AnalysisM (List String) := do
  let fn ← node f
  match fields.find? (·.name == fn.name) with
  | none =>
    report (.noField (← typeText st) fn.name) fn.span
    discard <| fail f
    return seen
  | some field =>
    if seen.contains fn.name then report (.fieldSetTwice fn.name) fn.span
    coerceSlot (.a f) field.type .assignMismatch
    discard <| finish f field.type
    return fn.name :: seen

def resolveStruct (rec : Resolver) (id : NodeId) : AnalysisM TypeId := do
  let n ← node id
  let ready ← n.list.allM fun f => do isResolved (← rec.resolve (← node f).a)
  if !ready then return ← pendingType
  if n.a = 0 then return ← anonymousStruct id n.list
  let st ← rec.typeExpr n.a
  if !(← isResolved st) then return ← pendingType
  match (← bareType st).shape with
  | .struct fields =>
    discard <| n.list.foldlM (structField st fields) []
    finish id st
  | .scalar .dynamic => fail id
  | _ =>
    report (.notAStruct (← typeText st)) n.span
    fail id

/-! ## Conversions and tests -/

def resolveCast (rec : Resolver) (id : NodeId) : AnalysisM TypeId := do
  let source ← rec.resolve (← node id).a
  let target ← rec.typeExpr (← node id).b
  if !(← isResolved source) || !(← isResolved target) then return ← pendingType
  if !(← withTypes (·.explicitCast source target)) then
    report (.cannotConvert (← typeText source) (← typeText target)) (← spanOf id)
    return ← fail id
  finish id target

/-- A type test folds to a constant. -/
def resolveTypeIs (rec : Resolver) (id : NodeId) : AnalysisM TypeId := do
  let value ← rec.resolve (← node id).a
  let want ← rec.typeExpr (← node id).b
  if !(← isResolved value) || !(← isResolved want) then return ← pendingType
  let same := (← types).isSame value want
  modifyNode id fun n => { n with flags := n.flags.union .folded, int := if same then 1 else 0 }
  finish id TypeTable.bool

def resolveExpr (rec : Resolver) (id : NodeId) (n : Node) : AnalysisM TypeId := do
  match n.kind with
  | .intLit => finish id TypeTable.int
  | .realLit => finish id TypeTable.real
  | .stringLit => finish id TypeTable.string
  | .boolLit => finish id TypeTable.bool
  | .ident => resolveName rec id n
  | .binary => resolveBinary rec id
  | .unary => resolveUnary rec id
  | .assign => resolveAssign rec id
  | .call => resolveCall rec id
  | .index => resolveIndex rec id
  | .member => resolveMember rec id
  | .arrayLit => resolveArray rec id
  | .mapLit => resolveMap rec id
  | .tupleLit => resolveTuple rec id
  | .structLit => resolveStruct rec id
  | .cast => resolveCast rec id
  | .typeIs => resolveTypeIs rec id
  | .unpack =>
    discard <| rec.resolve n.a
    report .unpackOutsideCall n.span
    fail id
  | .pair | .field => internal id (.outsideLiteral n.kind.name)
  | k => internal id (.unexpectedKind k.name)

end TreeCompiler.Analysis
