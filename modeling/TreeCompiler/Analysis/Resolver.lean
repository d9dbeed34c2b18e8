import TreeCompiler.Analysis.Declare

/-!
# The functions that resolution calls back

Resolving an expression may resolve a type, which may resolve a default value, and so on. `Resolver` bundles the three
functions through which the steps of resolution call each other; each step takes a `Resolver` and is not recursive
itself, and the circle is closed once, with a bound on its depth.

* `lookupName` : the symbol an identifier or type name stands for, with its reports;
* `typeArgsReady`, `typeArgs?` : the explicit type arguments of a name.
-/

namespace TreeCompiler

structure Resolver where
  resolve : NodeId → AnalysisM TypeId
  typeExpr : NodeId → AnalysisM TypeId
  varType : SymbolId → AnalysisM TypeId

namespace Analysis

/-- The symbol that a name denotes. An access violation is reported and the symbol still used. -/
def lookupName (id : NodeId) (n : Node) : AnalysisM (Option SymbolId) := do
  let q ← query id
  let tab ← scopes
  let shown := n.qualifiedName
  match tab.lookupQualified? q n.path n.fromGlobal n.name with
  | none =>
    report (.unknownNamespaceIn shown) n.span
    return none
  | some r =>
    if !r.isFound then
      report (if n.flags.has .implicit then .noOperatorFunction n.name
        else if n.kind = .typeName then .unknownType shown
        else .unknownIdentifier shown) n.span
      return none
    if !r.ambiguous.isEmpty then
      let notes := r.ambiguous.filterMap fun s => (tab.symbol? s).map fun sym =>
        { span := sym.span, text := "candidate declared in " ++ tab.qualifiedName sym.scope : Note }
      reportWith (.ambiguousName shown) n.span notes
      return none
    if r.denied then
      let sym ← symbol r.symbol
      reportWith (.inaccessible shown) n.span [{ span := sym.span, text := "declared here" }]
    return some r.symbol

/-- Resolves the explicit type arguments and tells whether all of them are known. -/
def typeArgsReady (rec : Resolver) (n : Node) : AnalysisM Bool :=
  n.typeArgs.allM fun ta => do isResolved (← rec.typeExpr ta)

/-- Types of a list of type expressions, none as soon as one is not known. -/
def typeList? (rec : Resolver) : List NodeId → AnalysisM (Option (List TypeId))
  | [] => return some []
  | id :: rest => do
    let t ← rec.typeExpr id
    if !(← isResolved t) then return none
    return (← typeList? rec rest).map (t :: ·)

def typeArgs? (rec : Resolver) (n : Node) : AnalysisM (Option (List TypeId)) := typeList? rec n.typeArgs

end Analysis

end TreeCompiler
