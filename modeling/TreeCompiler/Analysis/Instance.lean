import TreeCompiler.Analysis.Resolver

/-!
# Instances of generics

* `instantiate` : the instance of a generic for a vector of type arguments, made on first use by copying the
  declaration into a scope that binds the parameter names. Equal vectors share one instance. Every answer is noted;
* `pattern?` : the parameter types of a generic function with placeholders for its type parameters;
* `unify`, `derive?` : type arguments found by matching the pattern against argument types.
-/

namespace TreeCompiler

/-- Matches a pattern against a type and extends the bindings of placeholders; 0 marks a free one. Parts of the pattern
without placeholders are left to the overload rules. -/
def TypeTable.unifyAux (t : TypeTable) (origin : Nat → Nat) :
    Nat → TypeId → TypeId → List TypeId → Option (List TypeId)
  | 0, _, _, _ => none
  | fuel + 1, formal, actual, bind =>
    if !t.hasParams formal then some bind
    else match t.lookup? formal with
      | none => none
      | some f =>
        let all (fs as : List TypeId) (bind : List TypeId) : Option (List TypeId) :=
          if fs.length ≠ as.length then none
          else (fs.zip as).foldlM (fun b p => unifyAux t origin fuel p.1 p.2 b) bind
        match f.shape with
        | .param i =>
          match bind[i]? with
          | none => none
          | some 0 => some (bind.set i actual)
          | some bound => if bound = actual then some bind else none
        | shape =>
          match t.lookup? actual with
          | none => none
          | some a =>
            if f.isNamed then
              if !a.isNamed || origin f.sym ≠ origin a.sym then none else all f.args a.args bind
            else match shape, a.shape with
              | .array fe, .array ae => unifyAux t origin fuel fe ae bind
              | .map fk fe, .map ak ae => (unifyAux t origin fuel fk ak bind).bind (unifyAux t origin fuel fe ae)
              | .tuple fs, .tuple as => all fs as bind
              | .func fs _ fr, .func as _ ar => (all fs as bind).bind (unifyAux t origin fuel fr ar)
              | .struct fs, .struct as | .union fs, .union as =>
                if fs.map (·.name) = as.map (·.name) then all (fs.map (·.type)) (as.map (·.type)) bind else none
              | _, _ => none

def TypeTable.unify (t : TypeTable) (origin : Nat → Nat) (formal actual : TypeId) (bind : List TypeId) :
    Option (List TypeId) :=
  t.unifyAux origin (t.size + 2) formal actual bind

namespace Analysis

def anyParams (args : List TypeId) : AnalysisM Bool := return args.any (← types).hasParams

/-- Declares the names of template parameters in a scope of their own. -/
def templateScope (g : Symbol) (params : List String) (args : List TypeId) : AnalysisM ScopeId := do
  let ts ← withScopes (·.addScope { kind := .template, parent := g.scope, span := g.span })
  for (p, t) in params.zip args do
    let name ← internName p
    match (← scopes).declare ts { name, kind := .type, span := g.span, type := t } with
    | .ok (_, scopes) => modifyScopes fun _ => scopes
    | .error _ => pure ()
  return ts

/-- A where clause holds when each of its conditions folds to true. -/
def whereHolds (rec : Resolver) (clause : NodeId) : AnalysisM Bool := do
  for c in (← node clause).list do
    let t ← rec.resolve c
    if !(← isResolved t) || (← types).kind t ≠ .bool then return false
    let cn ← node c
    let folded := cn.flags.has .folded || cn.kind = .boolLit
    if !folded || cn.int = 0 then return false
  discard <| finish clause TypeTable.void
  return true

/-- Declares what the copy of a generic declaration introduces. -/
def declareInstance (kind : SymbolKind) (clone : NodeId) (inst : SymbolId) (args : List TypeId) : AnalysisM Unit := do
  let cn ← node clone
  match kind with
  | .function =>
    modifyResult fun r => { r with funcs := r.funcs.insert clone inst }
    declareFuncBody declare clone inst
  | .var =>
    let storage ← withScopes (·.allocGlobal)
    modifyScopes fun tab => tab.modifySymbol inst fun s => { s with storage }
    setDecl clone inst
    modifyResult fun r => { r with statics := r.statics ++ [{ symbol := inst, init := cn.b }] }
    declare cn.a
    declare cn.b
    if !(← anyParams args) then modify fun s => { s with instances := s.instances.push clone }
  | .type =>
    setDecl clone inst
    declare cn.a
  | _ => pure ()

/-- The instance is entered before its copy is declared, so that uses inside it find it. -/
def instanceOf (rec : Resolver) (gen : SymbolId) (args : List TypeId) : AnalysisM SymbolId := do
  let g ← symbol gen
  let some tpl := g.template | internal g.decl (.notGeneric (← symbolName gen))
  let key ← modifyGet fun s =>
    let (key, prints) := s.prints.keyOf s.result.types args
    (key, { s with prints })
  if let some inst := tpl.instances.lookup key then return inst
  let some (clone, copied) := (← tree).copy g.decl | throw .unbounded
  modifyResult fun r => { r with tree := copied.modify clone fun n => { n with params := [] } }
  let ts ← templateScope g tpl.params args
  let inst ← withScopes (·.addSymbol
    { name := g.name, kind := g.kind, attrs := g.attrs, scope := g.scope, decl := clone, span := g.span,
      type := TypeTable.pending, set := g.set, handle := g.handle, origin := gen, templateArgs := args })
  modifyScopes fun tab => tab.modifySymbol gen fun s =>
    { s with template := s.template.map fun tp => { tp with instances := tp.instances ++ [(key, inst)] } }
  outsideLoops <| withScope ts do
    setScope clone ts
    declareInstance g.kind clone inst args
  let clause := (← node clone).c
  if g.kind = .function && clause ≠ 0 && !(← anyParams args) then
    if !(← trying (whereHolds rec clause)) then
      modifyScopes fun tab => tab.modifySymbol inst fun s => { s with rejected := true }
  return inst

def instantiate (rec : Resolver) (gen : SymbolId) (args : List TypeId) : AnalysisM SymbolId := do
  let inst ← instanceOf rec gen args
  modify fun s => { s with requests := { generic := gen, args, inst } :: s.requests }
  return inst

/-- Types of the parameters of a generic, placeholders in place of its type parameters. -/
def patternTypes (rec : Resolver) (ts : ScopeId) : List NodeId → AnalysisM (Option (List TypeId))
  | [] => return some []
  | p :: rest => do
    let pn ← node p
    let t ← if pn.a = 0 then pure TypeTable.dynamic
      else do
        let some ids := (← tree).walk (fun _ => true) pn.a | throw .unbounded
        ids.forM (setScope · ts)
        rec.typeExpr pn.a
    if pn.a ≠ 0 && !(← isResolved t) then return none
    return (← patternTypes rec ts rest).map (t :: ·)

/-- Computed once for each generic. -/
def pattern? (rec : Resolver) (gen : SymbolId) : AnalysisM (Option (List TypeId)) := do
  let g ← symbol gen
  let some tpl := g.template | throw .brokenReference
  if let some p := tpl.pattern then return some p
  let mut holders : List TypeId := []
  for (p, i) in tpl.params.zipIdx do
    holders := holders ++ [← withTypes (·.param p i)]
  let ts ← templateScope g tpl.params holders
  match ← patternTypes rec ts (← node g.decl).list with
  | none => return none
  | some found =>
    modifyScopes fun tab => tab.modifySymbol gen fun s =>
      { s with template := s.template.map fun tp => { tp with pattern := some found } }
    return some found

/-- The generic that the symbol of a named type was made from, or the symbol itself. -/
def originOf (tab : ScopeTable) (sym : Nat) : Nat :=
  match tab.symbol? sym with
  | some s => if s.origin ≠ 0 then s.origin else sym
  | none => sym

/-- The type arguments of a generic function, found from the types of the arguments. Each parameter must be bound. -/
def derive? (rec : Resolver) (gen : SymbolId) (actuals : List TypeId) : AnalysisM (Option (List TypeId)) := do
  let some pat ← pattern? rec gen | return none
  let g ← symbol gen
  let free := List.replicate ((g.template.map (·.params.length)).getD 0) 0
  let s ← get
  let bound := (pat.zip actuals).foldlM
    (fun b p => s.result.types.unify (originOf s.result.scopes) p.1 p.2 b) free
  return bound.bind fun b => if b.contains 0 then none else some b

end Analysis

end TreeCompiler
