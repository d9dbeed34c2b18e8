import TreeCompiler.Analysis.Overload

/-!
# Calls

* `callActuals` : the arguments of a call with their types, unpacked tuples and fixed-count unpacks laid out;
* `callNamed` : a call of a name: an overload set, a variant, or a variable that holds a function;
* `callMember` : a call through a member. A receiver of a named type first tries the functions of the namespace that
  shares its name with the type, with the receiver as first argument; otherwise the member must hold a function;
* `callTyped` : a call of a computed function value.
-/

namespace TreeCompiler

/-- Where the arguments of a call stand. Of two states the later one counts. -/
inductive ArgState
  | ready
  | pending
  | failed
deriving DecidableEq, Repr, Inhabited

namespace ArgState

def max : ArgState → ArgState → ArgState
  | failed, _ | _, failed => failed
  | pending, _ | _, pending => pending
  | ready, ready => ready

end ArgState

/-- The arguments of a call; `spread` tells that an unpacked one has a length known only at run time. -/
structure CallArgs where
  acts : List Actual := []
  spread : Bool := false
  state : ArgState := .ready
deriving Inhabited

namespace Analysis

/-- The element types that an unpacked value contributes, and whether their number is known only at run time. A negative
count takes everything. None after a report. -/
def expand (id : NodeId) (n : Node) (inner : TypeId) : AnalysisM (Option (List TypeId × Bool)) := do
  let t ← bareType inner
  let refuse (p : Problem) : AnalysisM (Option (List TypeId × Bool)) := do
    report p n.span
    discard <| fail id
    return none
  let elements (elem : TypeId) : AnalysisM (Option (List TypeId × Bool)) := do
    discard <| finish id inner
    return some (if n.int < 0 then ([], true) else (List.replicate n.int.toNat elem, false))
  match t.shape with
  | .tuple elems =>
    if (elems.length : Int) < n.int then refuse (.unpackTooMany n.int (← typeText inner))
    else
      discard <| finish id inner
      return some (if n.int < 0 then elems else elems.take n.int.toNat, false)
  | .array elem => elements elem
  | .scalar .dynamic => elements TypeTable.dynamic
  | _ => refuse (.cannotUnpack (← typeText inner))

/-- Adds the argument at a position of the call's list. -/
def addActual (rec : Resolver) (call : NodeId) (args : CallArgs) (i : Nat) : AnalysisM CallArgs := do
  let arg := (← node call).list.getD i 0
  let an ← node arg
  if an.kind ≠ .unpack then
    let ready ← isResolved (← rec.resolve arg)
    let type := (← node arg).valueType
    return { args with
      acts := args.acts ++ [{ slot := some (.item call i), type }]
      state := if ready then args.state else args.state.max .pending }
  let inner ← rec.resolve an.a
  if !(← isResolved inner) then return { args with state := args.state.max .pending }
  match ← expand arg (← node arg) inner with
  | none => return { args with state := .failed }
  | some (elems, open?) =>
    return { args with
      acts := args.acts ++ elems.map fun type => { slot := none, type }
      spread := args.spread || open? }

def callActuals (rec : Resolver) (call : NodeId) : AnalysisM CallArgs := do
  (List.range (← node call).list.length).foldlM (addActual rec call) {}

/-- What a call yields while its arguments are not ready. -/
def waitForArgs (id : NodeId) (state : ArgState) : AnalysisM TypeId :=
  if state = .failed then fail id else pendingOrFail id

/-- Resolves the arguments of a call that cannot be made, for their own reports. -/
def touchArgs (rec : Resolver) (list : List NodeId) : AnalysisM Unit :=
  list.forM fun arg => do
    let an ← node arg
    discard <| rec.resolve (if an.kind = .unpack then an.a else arg)

def bindNode (id : NodeId) (sym : SymbolId) : AnalysisM Unit :=
  modifyResult fun r => { r with bindings := r.bindings.insert id sym }

def setCall (id : NodeId) (info : CallInfo) : AnalysisM Unit :=
  modifyResult fun r => { r with calls := r.calls.insert id info }

/-- Records the chosen candidate, casts the arguments that need it and completes the call with the result type. -/
def finishCall (rec : Resolver) (id callee : NodeId) (c : Candidate) (acts : List Actual) (method : Bool) :
    AnalysisM TypeId := do
  let ft ← funcType rec c.fn
  if !(← isResolved ft) then return ← pendingOrFail id
  castActuals acts (← funcInfo c.fn).params c.casts
  let kind := if (← symbol c.fn).attrs.has .native then CallKind.native else .static
  setCall id { kind, target := c.fn, method }
  bindNode callee c.fn
  discard <| finish callee ft
  finish id (← typeInfo ft).shape.result

def callOverloads (rec : Resolver) (id : NodeId) (cands : List SymbolId) : AnalysisM TypeId := do
  let args ← callActuals rec id
  if args.state ≠ .ready then return ← waitForArgs id args.state
  let callee := (← node id).a
  let cn ← node callee
  let explicit ← if cn.typeArgs.isEmpty then pure none else do pure (some ((← typeArgs? rec cn).getD []))
  match ← selectOverload rec (← query id) cands explicit args.acts args.spread with
  | .pending => pendingOrFail id
  | .chosen c _ => finishCall rec id callee c args.acts false
  | sel =>
    reportSelection id cn.qualifiedName sel args.acts
    discard <| fail callee
    fail id

def callTyped (id : NodeId) (ft : TypeId) (args : CallArgs) : AnalysisM TypeId := do
  let n ← node id
  match (← bareType ft).shape with
  | .func params variadic result =>
    match (← types).classify params variadic args.acts args.spread with
    | .error .arity =>
      report (.valueArity (← typeText ft) params.length args.acts.length) n.span
      fail id
    | .error _ =>
      report (.cannotCall (← typeText ft) (← typeTexts (args.acts.map (·.type)))) n.span
      fail id
    | .ok (_, casts) =>
      castActuals args.acts params casts
      setCall id { kind := .value }
      finish id result
  | .scalar .dynamic =>
    setCall id { kind := .value }
    finish id TypeTable.dynamic
  | _ =>
    report (.notCallable (← typeText ft)) (← spanOf n.a)
    fail id

/-- Calls a computed function value. -/
def callValue (rec : Resolver) (id : NodeId) : AnalysisM TypeId := do
  let ft ← rec.resolve (← node id).a
  let args ← callActuals rec id
  if args.state ≠ .ready then return ← waitForArgs id args.state
  if !(← isResolved ft) then return ← pendingOrFail id
  callTyped id ft args

/-- Makes a union value. -/
def callVariant (rec : Resolver) (id : NodeId) (variant : SymbolId) : AnalysisM TypeId := do
  let (payload, union) ← variantTypes rec variant
  touchArgs rec (← node id).list
  if !(← isResolved union) then return ← pendingOrFail id
  let n ← node id
  let want := if payload = 0 then 0 else 1
  let done : AnalysisM TypeId := do
    setCall id { kind := .variant, target := variant }
    bindNode n.a variant
    discard <| finish n.a (← symbol variant).type
    finish id union
  match n.list with
  | [] =>
    if want = 0 then done
    else
      report (.variantArity (← symbolName variant) want 0) n.span
      fail id
  | arg :: rest =>
    if rest.length + 1 ≠ want then
      report (.variantArity (← symbolName variant) want (rest.length + 1)) n.span
      return ← fail id
    let an ← node arg
    if an.kind = .unpack then
      report .payloadUnpacked an.span
      return ← fail id
    if !(← isResolved an.valueType) then return ← pendingOrFail id
    coerceSlot (.item id 0) payload .callMismatch
    done

/-- A call whose callee cannot be called; the arguments are still resolved. -/
def abandonCall (rec : Resolver) (id : NodeId) : AnalysisM TypeId := do
  let n ← node id
  discard <| fail n.a
  touchArgs rec n.list
  fail id

def callNamed (rec : Resolver) (id : NodeId) : AnalysisM TypeId := do
  let callee := (← node id).a
  let cn ← node callee
  if !(← typeArgsReady rec cn) then return ← pendingOrFail id
  let some symId ← lookupName callee cn | abandonCall rec id
  let sym ← symbol symId
  match sym.kind with
  | .overloads => callOverloads rec id sym.overloads
  | .variant => callVariant rec id symId
  | .type =>
    report (.typeCalled cn.qualifiedName) cn.span
    abandonCall rec id
  | _ => callValue rec id

/-- The overload set of a name in the namespace that is called like the type. -/
def methodSet? (typeSym : SymbolId) (name : String) : AnalysisM (Option (List SymbolId)) := do
  let tab ← scopes
  let ns := do
    let ts ← tab.symbol? typeSym
    (← tab.scope? ts.scope).nameSpace? ts.name
  match ns with
  | none => return none
  | some ns =>
    let key ← internName name
    return do
      let set ← tab.symbol? (← tab.boundIn? ns key)
      if set.kind = .overloads then some set.overloads else none

/-- Calls a member that holds a function. -/
def callField (rec : Resolver) (id : NodeId) (args : CallArgs) : AnalysisM TypeId := do
  let ft ← rec.resolve (← node id).a
  if !(← isResolved ft) then return ← pendingOrFail id
  callTyped id ft args

def callMember (rec : Resolver) (id : NodeId) : AnalysisM TypeId := do
  let callee := (← node id).a
  let recv ← rec.resolve (← node callee).a
  let args ← callActuals rec id
  if args.state ≠ .ready then return ← waitForArgs id args.state
  if !(← isResolved recv) then return ← pendingOrFail id
  let rt ← typeInfo recv
  let member := (← node callee).name
  let hasField : Bool := match rt.shape with
    | .struct _ => (rt.fieldIndex? member).isSome
    | _ => false
  if !rt.isNamed then return ← callField rec id args
  match ← methodSet? rt.sym member with
  | none => callField rec id args
  | some set =>
    let all := { slot := some (.a callee), type := recv : Actual } :: args.acts
    let (found, sel) ← tryingFor (.nothing []) do
      let sel ← selectOverload rec (← query id) set none all args.spread
      return (match sel with
        | .chosen _ _ => true
        | _ => false, sel)
    match sel, found, hasField with
    | .pending, _, _ => pendingOrFail id
    | .chosen c _, true, _ => finishCall rec id callee c all true
    | _, _, true => callField rec id args
    | _, _, false =>
      reportSelection id ((← typeText recv) ++ "." ++ member) sel all
      fail id

def resolveCall (rec : Resolver) (id : NodeId) : AnalysisM TypeId := do
  match (← node (← node id).a).kind with
  | .ident => callNamed rec id
  | .member => callMember rec id
  | _ => callValue rec id

end Analysis

end TreeCompiler
