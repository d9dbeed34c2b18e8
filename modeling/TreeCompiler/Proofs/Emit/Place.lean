import Mathlib.Logic.Relation
import TreeCompiler.Emit.Run

/-!
# What emission visits

Emission goes from place to place: the value of an expression, a statement, or the zero value of a type.

* `parts` : the places that the code of a place is made of, whether or not they are children of its node. A struct that
  is built brings the defaults of its fields along, and a function literal brings nothing;
* `names` : the variables that the code of a place itself reads or writes;
* `Reaches` : the places met below a place.
-/

namespace TreeCompiler

inductive Place
  | expr (id : NodeId)
  | stmt (id : NodeId)
  | zero (t : TypeId)
deriving DecidableEq, Repr, Inhabited

namespace AnalysisResult

variable (u : AnalysisResult)

/-! ## Expressions -/

/-- The defaults of the fields of a struct type, 0 for a field without one. -/
def defaultsOf (t : TypeId) : List NodeId :=
  match u.fieldDefaults.get? t with
  | some ds => ds
  | none => ((u.types.underlying? t).bind u.fieldDefaults.get?).getD []

/-- Where the value of a field comes from. -/
def fieldPart (t : TypeId) (given : List (String × NodeId)) (f : TyField) (i : Nat) : Place :=
  match given.lookup f.name, (u.defaultsOf t).getD i 0 with
  | some v, _ => .expr v
  | none, 0 => .zero f.type
  | none, d => .expr d

def structParts (t : TypeId) (given : List (String × NodeId)) : List Place :=
  match u.types.lookup? t with
  | some ty => ty.shape.fields.zipIdx.map fun (f, i) => u.fieldPart t given f i
  | none => []

def zeroParts (t : TypeId) : List Place :=
  match u.types.lookup? t with
  | some ty =>
    match ty.shape with
    | .tuple elems => elems.map .zero
    | .struct _ => u.structParts t []
    | _ => []
  | none => []

/-- The fields that a struct literal gives, the last one first. -/
def givenOf (list : List NodeId) : List (String × NodeId) :=
  ((list.filterMap u.tree.get?).map fun f => (f.name, f.a)).reverse

/-- Only the target of a compound assignment is read. -/
def assignParts (n : Node) : List Place :=
  match u.tree.get? n.a with
  | some tn =>
    match tn.kind with
    | .ident => if n.op = .none then [.expr n.b] else [.expr n.a, .expr n.b]
    | .index => [.expr tn.a, .expr tn.b, .expr n.b]
    | .member => [.expr tn.a, .expr n.b]
    | _ => []
  | none => []

/-- An unpacked argument is the value that is unpacked. -/
def argPart (arg : NodeId) : Place :=
  match u.tree.get? arg with
  | some an => if an.kind = .unpack then .expr an.a else .expr arg
  | none => .expr arg

def receiver (n : Node) : NodeId := ((u.tree.get? n.a).map (·.a)).getD 0

/-- The callee of a call is emitted only when it is a computed value. -/
def callParts (id : NodeId) (n : Node) : List Place :=
  match u.calls.get? id with
  | some info =>
    match info.kind with
    | .variant => n.list.map .expr
    | k => (if k = .value then [.expr n.a] else []) ++ n.list.map u.argPart ++
        (if info.method then [.expr (u.receiver n)] else [])
  | none => []

def exprParts (id : NodeId) (n : Node) : List Place :=
  match n.kind with
  | .binary | .index => [.expr n.a, .expr n.b]
  | .unary | .member | .cast => [.expr n.a]
  | .assign => u.assignParts n
  | .call => u.callParts id n
  | .arrayLit | .tupleLit => n.list.map .expr
  | .mapLit => (n.list.filterMap u.tree.get?).flatMap fun pn => [.expr pn.a, .expr pn.b]
  | .structLit => u.structParts n.valueType (u.givenOf n.list)
  | _ => []

/-- The scope of the body of a function. -/
def bodyScope? (fn : SymbolId) : Option Scope := (u.scopes.symbol? fn).bind fun s => u.scopes.scope? s.body

/-- The variables that a function literal copies. -/
def capturesOf (fn : SymbolId) : List SymbolId := ((u.bodyScope? fn).map fun sc => sc.captures.map (·.1)).getD []

def boundVar? (id : NodeId) : Option SymbolId :=
  (u.bindings.get? id).filter fun v => ((u.scopes.symbol? v).map (·.kind)) = some .var

def exprNames (id : NodeId) (n : Node) : List SymbolId :=
  match n.kind with
  | .ident => (u.boundVar? id).toList
  | .assign => if u.tree.kind n.a = .ident then (u.bindings.get? n.a).toList else []
  | .func => ((u.funcs.get? id).map u.capturesOf).getD []
  | _ => []

/-! ## Statements -/

/-- The variable that a declaration initializes; static ones are initialized elsewhere. -/
def initialized? (id : NodeId) (n : Node) : Option (SymbolId × Symbol) :=
  if n.isGeneric || n.flags.has .static then none
  else ((u.decls.get? id).bind fun v => (u.scopes.symbol? v).map fun s => (v, s)).filter fun p => !p.2.rejected

def letParts (id : NodeId) (n : Node) : List Place :=
  match u.initialized? id n with
  | some (_, s) => [if n.b = 0 then .zero s.type else .expr n.b]
  | none => []

def armPart (c : NodeId) : Place := .stmt (((u.tree.get? c).map (·.a)).getD 0)

def stmtParts (id : NodeId) (n : Node) : List Place :=
  if n.kind.isExpr && n.kind ≠ .func then [.expr id]
  else match n.kind with
    | .file | .nameSpace | .block => n.list.map .stmt
    | .exprStmt => [.expr n.a]
    | .letDecl => u.letParts id n
    | .ifStmt => [.expr n.a, .stmt n.b, .stmt n.c]
    | .whileLoop | .eachLoop => [.expr n.a, .stmt n.b]
    | .forLoop => (if n.b = 0 then [] else [.expr n.b]) ++ [.stmt n.a, .stmt n.c, .stmt n.d]
    | .matchStmt => .expr n.a :: n.list.map u.armPart
    | .returnStmt => if n.a = 0 then [] else [.expr n.a]
    | _ => []

def stmtNames (id : NodeId) (n : Node) : List SymbolId :=
  match n.kind with
  | .letDecl => ((u.initialized? id n).map (·.1)).toList
  | .eachLoop => (u.decls.get? id).toList ++ (u.keys.get? id).toList
  | .matchStmt => n.list.filterMap u.decls.get?
  | _ => []

/-! ## Places -/

def parts : Place → List Place
  | .expr id => ((u.tree.get? id).map (u.exprParts id)).getD []
  | .stmt id => ((u.tree.get? id).map (u.stmtParts id)).getD []
  | .zero t => u.zeroParts t

def names : Place → List SymbolId
  | .expr id => ((u.tree.get? id).map (u.exprNames id)).getD []
  | .stmt id => ((u.tree.get? id).map (u.stmtNames id)).getD []
  | .zero _ => []

abbrev Reaches : Place → Place → Prop := Relation.ReflTransGen fun p q => q ∈ u.parts p

/-! ## Code -/

/-- Whether a static variable is initialized at all; those of open generic instances are not. -/
def isLive (s : Symbol) : Bool := !s.rejected && u.types.isResolved s.type && !s.templateArgs.any u.types.hasParams

def staticParts (st : StaticInit) : List Place :=
  match (u.scopes.symbol? st.symbol).filter u.isLive with
  | some s => [if st.init = 0 then .zero s.type else .expr st.init]
  | none => []

/-- A body that is a block is the sequence of its statements, any other body a value. -/
def bodyParts (body : NodeId) : List Place :=
  if u.tree.kind body = .block then ((u.tree.get? body).map (·.list.map .stmt)).getD []
  else if body = 0 then [] else [.expr body]

def declarationOf? (fn : SymbolId) : Option Node := (u.scopes.symbol? fn).bind fun s => u.tree.get? s.decl

/-- The places that the code of a function is made of; those of the entry code for 0. -/
def codeParts (fn : SymbolId) : List Place :=
  if fn = 0 then u.statics.flatMap u.staticParts ++ u.tree.roots.map .stmt
  else ((u.declarationOf? fn).map fun n => u.bodyParts n.b).getD []

/-- The variables that the code of a function reads or writes. -/
def Names (fn v : SymbolId) : Prop :=
  (∃ p ∈ u.codeParts fn, ∃ q, u.Reaches p q ∧ v ∈ u.names q) ∨
    fn = 0 ∧ ∃ st ∈ u.statics, st.symbol = v ∧ ((u.scopes.symbol? v).filter u.isLive).isSome

end AnalysisResult

end TreeCompiler
