import TreeCompiler.Scope.Table

/-!
# Name lookup

* `lookup` : an unqualified name. The innermost visible binding wins when it is local; a binding in a namespace ends the
  walk and competes with what the imports along the chain bring in;
* `lookupIn`, `lookupQualified?` : a name directly in a namespace, and behind a path;
* `resolveNamespace?`, `resolveImport?` : what a path names. Imports are not transitive;
* `accessible` : private symbols are for their file, protected ones for the scopes inside their own.

Several distinct candidates make a lookup ambiguous. A lookup reads the table and changes nothing; `askedNames` lists the
names it compares.
-/

namespace TreeCompiler

/-- Where a name is looked up from. Locals declared later than a nonzero `seq` are invisible. -/
structure Query where
  origin : ScopeId
  file : Nat := 0
  seq : Nat := 0
deriving Repr, Inhabited

/-- `ambiguous` lists every distinct match when there is more than one. -/
structure Found where
  symbol : SymbolId := 0
  ambiguous : List SymbolId := []
  denied : Bool := false
deriving DecidableEq, Repr, Inhabited

namespace Found

def isFound (r : Found) : Bool := r.symbol ≠ 0

end Found

namespace ScopeTable

def visible (t : ScopeTable) (q : Query) (id : SymbolId) : Bool :=
  match t.symbol? id with
  | none => true
  | some s => q.seq = 0 || s.seq = 0 || s.kind ≠ .var || s.seq ≤ q.seq

def accessible (t : ScopeTable) (q : Query) (id : SymbolId) : Bool :=
  match t.symbol? id with
  | none => false
  | some s =>
    s.kind = .overloads ||
      !(s.attrs.has .priv && s.span.file ≠ q.file) && !(s.attrs.has .prot && !t.isWithin q.origin s.scope)

def boundIn? (t : ScopeTable) (scope : ScopeId) (name : NameId) : Option SymbolId :=
  (t.scope? scope).bind (·.symbol? name)

/-- The child namespace of that name. -/
def childNamespace? (t : ScopeTable) (scope : ScopeId) (seg : String) : Option ScopeId := do
  (← t.scope? scope).nameSpace? (← t.nameId? seg)

def descend? (t : ScopeTable) (scope : ScopeId) : List String → Option ScopeId
  | [] => some scope
  | seg :: rest => do t.descend? (← t.childNamespace? scope seg) rest

/-- The first segment is searched outwards, the others directly below it. -/
def namespaceOnChain? (t : ScopeTable) (origin : ScopeId) : List String → Option ScopeId
  | [] => none
  | seg :: rest => do t.descend? (← (t.chain origin).findSome? fun s => t.childNamespace? s seg) rest

def resolveImport? (t : ScopeTable) (owner : ScopeId) (u : Import) : Option ScopeId :=
  if u.fromGlobal then t.descend? root u.path else t.namespaceOnChain? owner u.path

/-- The namespaces that the imports along the chain bring in. -/
def importedScopes (t : ScopeTable) (origin : ScopeId) : List ScopeId :=
  (t.chain origin).flatMap fun s => (((t.scope? s).map (·.imports)).getD []).filterMap (t.resolveImport? s)

def resolveNamespace? (t : ScopeTable) (origin : ScopeId) (path : List String) (fromGlobal : Bool) : Option ScopeId :=
  if fromGlobal then t.descend? root path
  else match t.namespaceOnChain? origin path with
    | some ns => some ns
    | none => (t.importedScopes origin).findSome? fun ns => t.descend? ns path

/-- The result for the matches of a lookup. -/
def found (t : ScopeTable) (q : Query) (hits : List SymbolId) : Found :=
  match hits.eraseDups with
  | [] => {}
  | [id] => { symbol := id, denied := !t.accessible q id }
  | id :: rest => { symbol := id, ambiguous := id :: rest }

/-- The innermost scope that binds the name visibly, with what it binds. -/
def chainHit? (t : ScopeTable) (q : Query) (name : NameId) : Option (ScopeId × SymbolId) :=
  (t.chain q.origin).findSome? fun s => do
    let id ← t.boundIn? s name
    if t.visible q id then some (s, id) else none

def importedHits (t : ScopeTable) (q : Query) (name : NameId) : List SymbolId :=
  (t.importedScopes q.origin).filterMap (t.boundIn? · name)

def lookup (t : ScopeTable) (q : Query) (name : String) : Found :=
  match t.nameId? name with
  | none => {}
  | some n =>
    match t.chainHit? q n with
    | some (s, id) => if t.scopeKind s = .nameSpace then t.found q (id :: t.importedHits q n) else t.found q [id]
    | none => t.found q (t.importedHits q n)

def lookupIn (t : ScopeTable) (q : Query) (ns : ScopeId) (name : String) : Found :=
  match (t.nameId? name).bind (t.boundIn? ns) with
  | some id => t.found q [id]
  | none => {}

/-- `none` when the path itself names no namespace. -/
def lookupQualified? (t : ScopeTable) (q : Query) (path : List String) (fromGlobal : Bool) (name : String) :
    Option Found :=
  match path with
  | [] => some (if fromGlobal then t.lookupIn q root name else t.lookup q name)
  | _ => (t.resolveNamespace? q.origin path fromGlobal).map fun ns => t.lookupIn q ns name

/-! ## Names asked for -/

/-- The segments that `descend?` compares. -/
def askedBelow (t : ScopeTable) (scope : ScopeId) : List String → List String
  | [] => []
  | seg :: rest =>
    match t.childNamespace? scope seg with
    | some child => seg :: t.askedBelow child rest
    | none => [seg]

def askedOnChain (t : ScopeTable) (origin : ScopeId) : List String → List String
  | [] => []
  | seg :: rest =>
    match (t.chain origin).findSome? fun s => t.childNamespace? s seg with
    | some child => seg :: t.askedBelow child rest
    | none => [seg]

def askedByImport (t : ScopeTable) (owner : ScopeId) (u : Import) : List String :=
  if u.fromGlobal then t.askedBelow root u.path else t.askedOnChain owner u.path

def askedByImports (t : ScopeTable) (origin : ScopeId) : List String :=
  (t.chain origin).flatMap fun s => (((t.scope? s).map (·.imports)).getD []).flatMap (t.askedByImport s)

/-- The names that an unqualified lookup compares. -/
def askedNames (t : ScopeTable) (q : Query) (name : String) : List String :=
  let endsLocal : Bool := match (t.nameId? name).bind (t.chainHit? q) with
    | some (s, _) => t.scopeKind s ≠ .nameSpace
    | none => false
  if endsLocal then [name] else name :: t.askedByImports q.origin

/-- The names that resolving a namespace path compares. -/
def askedByPath (t : ScopeTable) (origin : ScopeId) (path : List String) (fromGlobal : Bool) : List String :=
  if fromGlobal then t.askedBelow root path
  else if (t.namespaceOnChain? origin path).isSome then t.askedOnChain origin path
  else
    t.askedOnChain origin path ++ t.askedByImports origin ++
      (t.importedScopes origin).flatMap fun ns => t.askedBelow ns path

end ScopeTable

end TreeCompiler
