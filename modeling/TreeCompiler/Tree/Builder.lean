import TreeCompiler.Tree.Basic

/-!
# Building trees

`Builder` assembles a tree node by node. Every node gets a span of one octet of its own, so that diagnostics can be told
apart without any text. Items are collected for the current file; `newFile` and `finish` turn them into a root.

The functions below `Builder.node` make the node of each construct from its parts.
-/

namespace TreeCompiler

structure Builder where
  tree : Tree := {}
  file : Nat := 0
  pos : Nat := 0
  items : List NodeId := []
deriving Inhabited

namespace Builder

/-- A tree with a single in-memory file. -/
def ofPath (path : String) : Builder := { tree := { files := ({} : FileTable).add path none true } }

def node (b : Builder) (n : Node) : NodeId × Builder :=
  let (id, tree) := b.tree.push { n with span := { file := b.file, start := b.pos, stop := b.pos + 1 } }
  (id, { b with tree, pos := b.pos + 1 })

def modify (b : Builder) (id : NodeId) (f : Node → Node) : Builder := { b with tree := b.tree.modify id f }

/-- Appends an item to the current file. -/
def add (b : Builder) (id : NodeId) : Builder := { b with items := b.items ++ [id] }

/-- Makes the root of the current file, unless it has no items. -/
def flush (b : Builder) : Builder :=
  if b.items.isEmpty then b
  else
    let (id, b) := b.node { kind := .file, list := b.items }
    { b with tree := { b.tree with roots := b.tree.roots ++ [id] }, items := [] }

/-- Begins a further file. -/
def newFile (b : Builder) (path : String) : Builder :=
  let b := b.flush
  { b with file := b.tree.files.size, tree := { b.tree with files := b.tree.files.add path none true } }

def finish (b : Builder) : Builder := b.flush

def count (b : Builder) : Nat := b.tree.size

def addFlags (b : Builder) (id : NodeId) (f : Flags) : Builder :=
  b.modify id fun n => { n with flags := n.flags.union f }

def setParams (b : Builder) (id : NodeId) (params : List String) : Builder := b.modify id fun n => { n with params }

def setLabel (b : Builder) (id : NodeId) (label : String) : Builder := b.modify id fun n => { n with label }

/-- Attaches a where clause to a function. -/
def whereClause (b : Builder) (fn : NodeId) (conds : List NodeId) : Builder :=
  let (w, b) := b.node { kind := .whereClause, list := conds }
  b.modify fn fun n => { n with c := w }

/-- A map literal from alternating keys and values. A last key without value is dropped. -/
def mapPairs (b : Builder) : List NodeId → List NodeId × Builder
  | k :: v :: rest =>
    let (p, b) := b.node { kind := .pair, a := k, b := v }
    let (ps, b) := b.mapPairs rest
    (p :: ps, b)
  | _ => ([], b)

def mapLit (b : Builder) (parts : List NodeId) : NodeId × Builder :=
  let (pairs, b) := b.mapPairs parts
  b.node { kind := .mapLit, list := pairs }

end Builder

namespace Node

/-! ## Declarations -/

def nameSpace (name : String) (items : List NodeId) : Node := { kind := .nameSpace, name, list := items }

def importing (path : List String) : Node := { kind := .importing, path }

def letDecl (name : String) (type init : NodeId) : Node := { kind := .letDecl, name, a := type, b := init }

def constDecl (name : String) (type init : NodeId) : Node := { letDecl name type init with flags := .const }

def param (name : String) (type : NodeId) : Node := { kind := .param, name, a := type }

/-- A function; the empty name makes a literal. -/
def func (name : String) (params : List NodeId) (result body : NodeId) : Node :=
  { kind := .func, name, list := params, a := result, b := body }

def nativeFunc (native : NativeName) (name : String) (params : List NodeId) (result : NodeId) : Node :=
  { kind := .func, name, list := params, a := result, flags := .native, native := some native }

def typeDecl (name : String) (type : NodeId) : Node := { kind := .typeDecl, name, a := type }

def aliasDecl (name : String) (type : NodeId) : Node := { typeDecl name type with flags := .aliased }

def unionDecl (name : String) (variants : List NodeId) : Node := { kind := .unionDecl, name, list := variants }

def variant (name : String) (payload : NodeId) : Node := { kind := .variant, name, a := payload }

/-! ## Statements -/

def block (stmts : List NodeId) : Node := { kind := .block, list := stmts }

def ifStmt (cond yes no : NodeId) : Node := { kind := .ifStmt, a := cond, b := yes, c := no }

def whileLoop (cond body : NodeId) : Node := { kind := .whileLoop, a := cond, b := body }

def forLoop (init cond step body : NodeId) : Node := { kind := .forLoop, a := init, b := cond, c := step, d := body }

def eachLoop (value key : String) (iterable body : NodeId) : Node :=
  { kind := .eachLoop, name := value, bind := key, a := iterable, b := body }

def matchStmt (subject : NodeId) (arms : List NodeId) : Node := { kind := .matchStmt, a := subject, list := arms }

def matchArm (variant bind : String) (body : NodeId) : Node := { kind := .matchArm, name := variant, bind, a := body }

def breakStmt (label : String) : Node := { kind := .breakStmt, label }

def continueStmt (label : String) : Node := { kind := .continueStmt, label }

def returnStmt (value : NodeId) : Node := { kind := .returnStmt, a := value }

def exprStmt (e : NodeId) : Node := { kind := .exprStmt, a := e }

/-! ## Expressions -/

def intLit (n : Int) : Node := { kind := .intLit, int := n }

def realLit (bits : UInt64) : Node := { kind := .realLit, real := bits }

def stringLit (s : String) : Node := { kind := .stringLit, text := s }

def boolLit (b : Bool) : Node := { kind := .boolLit, int := if b then 1 else 0 }

/-- A name behind a namespace path; the last part is the name. -/
def ident (parts : List String) : Node := { kind := .ident, name := parts.getLastD "", path := parts.dropLast }

def globalIdent (parts : List String) : Node := { ident parts with flags := .fromGlobal }

def instanceIdent (name : String) (args : List NodeId) : Node := { kind := .ident, name, typeArgs := args }

def binary (op : Operator) (l r : NodeId) : Node := { kind := .binary, op, a := l, b := r }

def unary (op : Operator) (x : NodeId) : Node := { kind := .unary, op, a := x }

def assign (op : Operator) (target value : NodeId) : Node := { kind := .assign, op, a := target, b := value }

def call (callee : NodeId) (args : List NodeId) : Node := { kind := .call, a := callee, list := args }

def index (x key : NodeId) : Node := { kind := .index, a := x, b := key }

def member (x : NodeId) (name : String) : Node := { kind := .member, a := x, name }

def arrayLit (elems : List NodeId) : Node := { kind := .arrayLit, list := elems }

def tupleLit (elems : List NodeId) : Node := { kind := .tupleLit, list := elems }

def structLit (type : NodeId) (fields : List NodeId) : Node := { kind := .structLit, a := type, list := fields }

/-- A field of a struct literal, or of a struct type with its default value. -/
def field (name : String) (value default : NodeId) : Node := { kind := .field, name, a := value, b := default }

def cast (x type : NodeId) : Node := { kind := .cast, a := x, b := type }

/-- Unpacks `count` elements, all of them when it is negative. -/
def unpack (x : NodeId) (count : Int) : Node := { kind := .unpack, a := x, int := count }

def typeIs (x type : NodeId) : Node := { kind := .typeIs, a := x, b := type }

/-! ## Types -/

def typeName (parts : List String) : Node := { kind := .typeName, name := parts.getLastD "", path := parts.dropLast }

def instanceType (name : String) (args : List NodeId) : Node := { kind := .typeName, name, typeArgs := args }

def typeFunc (result : NodeId) (params : List NodeId) : Node := { kind := .typeFunc, a := result, list := params }

def typeArray (elem : NodeId) : Node := { kind := .typeArray, a := elem }

def typeMap (key value : NodeId) : Node := { kind := .typeMap, a := key, b := value }

def typeTuple (elems : List NodeId) : Node := { kind := .typeTuple, list := elems }

def typeStruct (fields : List NodeId) : Node := { kind := .typeStruct, list := fields }

end Node

end TreeCompiler
