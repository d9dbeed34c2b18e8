import TreeCompiler.Scope.Symbol

/-!
# The scope table of a unit

`ScopeTable` owns every scope and symbol of a unit. Both are numbered from 1; 0 stands for none, and scope 1 is the
global namespace. A scope is made under one that exists, so `chain` reaches the root within `scopes.size` steps.
-/

namespace TreeCompiler

structure ScopeTable where
  names : NameTable := {}
  scopes : Array Scope := #[{ kind := .nameSpace }]
  symbols : Array Symbol := #[]
  globals : Nat := 0
deriving Inhabited

namespace ScopeTable

def root : ScopeId := 1

def scope? (t : ScopeTable) (id : ScopeId) : Option Scope := if id = 0 then none else t.scopes[id - 1]?

def symbol? (t : ScopeTable) (id : SymbolId) : Option Symbol := if id = 0 then none else t.symbols[id - 1]?

def modifyScope (t : ScopeTable) (id : ScopeId) (f : Scope → Scope) : ScopeTable :=
  if id = 0 then t else { t with scopes := t.scopes.modify (id - 1) f }

def modifySymbol (t : ScopeTable) (id : SymbolId) (f : Symbol → Symbol) : ScopeTable :=
  if id = 0 then t else { t with symbols := t.symbols.modify (id - 1) f }

def intern (t : ScopeTable) (s : String) : NameId × ScopeTable :=
  let (id, names) := t.names.intern s
  (id, { t with names })

def internAll (t : ScopeTable) (ss : List String) : ScopeTable := ss.foldl (fun t s => (t.intern s).2) t

/-- The number of a name that has been seen. -/
def nameId? (t : ScopeTable) (s : String) : Option NameId := t.names.find? (Compose.normalize s)

/-- The text of a symbol's name. -/
def symbolName (t : ScopeTable) (id : SymbolId) : String :=
  match t.symbol? id with
  | some s => t.names.text s.name
  | none => ""

def scopeKind (t : ScopeTable) (id : ScopeId) : ScopeKind := ((t.scope? id).map (·.kind)).getD .invalid

def addScope (t : ScopeTable) (s : Scope) : ScopeId × ScopeTable :=
  (t.scopes.size + 1, { t with scopes := t.scopes.push s })

def addSymbol (t : ScopeTable) (s : Symbol) : SymbolId × ScopeTable :=
  (t.symbols.size + 1, { t with symbols := t.symbols.push s })

/-- The namespace called `name` under `parent`, made on first use. -/
def openNamespace (t : ScopeTable) (parent : ScopeId) (name : String) (span : Span) : ScopeId × ScopeTable :=
  let (key, t) := t.intern name
  match (t.scope? parent).bind (·.nameSpace? key) with
  | some id => (id, t)
  | none =>
    let (id, t) := t.addScope { kind := .nameSpace, parent, name, span }
    (id, t.modifyScope parent fun s => { s with namespaces := s.namespaces ++ [(key, id)] })

/-- Binds a symbol under its name. When the name is taken, the symbol that has it is the error and nothing is bound. -/
def declare (t : ScopeTable) (scope : ScopeId) (sym : Symbol) : Except SymbolId (SymbolId × ScopeTable) :=
  match (t.scope? scope).bind (·.symbol? sym.name) with
  | some prev => .error prev
  | none =>
    let (id, t) := t.addSymbol { sym with scope }
    .ok (id, t.modifyScope scope fun s =>
      { s with
        names := s.names ++ [(sym.name, id)]
        introduced := if s.kind = .block then s.introduced ++ [id] else s.introduced })

/-- Adds a function to the overload set of its name, made on first use. A name that is bound to anything else is an
error. -/
def declareCandidate (t : ScopeTable) (scope : ScopeId) (cand : Symbol) : Except SymbolId (SymbolId × ScopeTable) :=
  let finish (t : ScopeTable) (set : SymbolId) : Except SymbolId (SymbolId × ScopeTable) :=
    let (id, t) := t.addSymbol { cand with scope, set }
    .ok (id, t.modifySymbol set fun s => { s with overloads := s.overloads ++ [id] })
  match (t.scope? scope).bind (·.symbol? cand.name) with
  | some set => if ((t.symbol? set).map (·.kind)) = some .overloads then finish t set else .error set
  | none =>
    match t.declare scope { name := cand.name, kind := .overloads, span := cand.span, attrs := cand.attrs } with
    | .ok (set, t) => finish t set
    | .error prev => .error prev

def allocGlobal (t : ScopeTable) : Storage × ScopeTable := (.global t.globals, { t with globals := t.globals + 1 })

def chainAux (t : ScopeTable) : Nat → ScopeId → List ScopeId
  | 0, _ => []
  | fuel + 1, id =>
    match t.scope? id with
    | none => []
    | some s => id :: chainAux t fuel s.parent

/-- A scope and the scopes around it, innermost first. -/
def chain (t : ScopeTable) (id : ScopeId) : List ScopeId := t.chainAux (t.scopes.size + 1) id

/-- The function scope around a scope; 0 outside of functions. -/
def funcScope (t : ScopeTable) (id : ScopeId) : ScopeId :=
  match (t.chain id).find? (fun s => t.scopeKind s = .function || t.scopeKind s = .nameSpace) with
  | some s => if t.scopeKind s = .function then s else 0
  | none => 0

def isWithin (t : ScopeTable) (id outer : ScopeId) : Bool := (t.chain id).contains outer

/-- The next frame slot of the function around a scope. -/
def allocLocal? (t : ScopeTable) (id : ScopeId) : Option (Storage × ScopeTable) :=
  let fn := t.funcScope id
  (t.scope? fn).map fun s =>
    (.frame (-(s.stackTop : Int)),
      t.modifyScope fn fun s => { s with stackTop := s.stackTop + 1, maxStack := max s.maxStack (s.stackTop + 1) })

/-- Notes the frame height at the entry of a block. -/
def enterBlock (t : ScopeTable) (id : ScopeId) : ScopeTable :=
  match t.scope? (t.funcScope id) with
  | some fn => t.modifyScope id fun s => { s with stackBase := fn.stackTop }
  | none => t

/-- Gives the slots of a block back. -/
def leaveBlock (t : ScopeTable) (id : ScopeId) : ScopeTable :=
  let base := ((t.scope? id).map (·.stackBase)).getD 0
  t.modifyScope (t.funcScope id) fun s => { s with stackTop := base }

/-- The copy of an outer symbol inside a function, made on first use. -/
def capture (t : ScopeTable) (fn : ScopeId) (outer : SymbolId) : SymbolId × ScopeTable :=
  match t.scope? fn, t.symbol? outer with
  | some f, some src =>
    match f.captures.lookup outer with
    | some id => (id, t)
    | none =>
      let (id, t) := t.addSymbol
        { name := src.name, kind := .var, attrs := src.attrs, scope := fn, decl := src.decl, span := src.span,
          type := src.type, storage := .captured f.captures.length, origin := outer }
      (id, t.modifyScope fn fun s => { s with captures := s.captures ++ [(outer, id)] })
  | _, _ => (0, t)

/-- The namespace path of a scope, `::a::b`. -/
def qualifiedName (t : ScopeTable) (id : ScopeId) : String :=
  let segs := ((t.chain id).takeWhile (· ≠ root)).filterMap fun s =>
    match t.scope? s with
    | some sc => if sc.kind = .nameSpace then some ("::" ++ sc.name) else none
    | none => none
  if segs.isEmpty then "::" else String.join segs.reverse

end ScopeTable

end TreeCompiler
