import TreeCompiler.Source.Document
import TreeCompiler.Tree.Builder

/-!
# Trees written as documents

A tree has two written forms. The flat one lists files, nodes with their fields and roots. The nested one is a path with
items, each item a list `[call, argument…]` whose arguments are built from left to right, so that parts get lower numbers
than the whole.

* `Tree.ofFlat` : reads the flat form;
* `Builder.ofItems` : reads the nested form, up to the last item;
* `Tree.document` : the flat form of a tree, with spans as text and without what is empty.
-/

namespace TreeCompiler

inductive NotationError
  | badNode
  | badReal
  | unknownCall (name : String)
deriving DecidableEq, Repr, Inhabited

namespace NotationError

def message : NotationError → String
  | badNode => "bad node"
  | badReal => "bad real"
  | unknownCall name => "unknown builder call " ++ name

end NotationError

/-- The bits of a real from up to sixteen hexadecimal digits. -/
def realBits (s : String) : Except NotationError UInt64 :=
  if s.isEmpty || 16 < s.length then .error .badReal
  else match s.toList.foldlM (fun n c => (hexValue? c).map (n * 16 + ·)) 0 with
    | some n => .ok (UInt64.ofNat n)
    | none => .error .badReal

/-- A kind by name or by number. -/
def NodeKind.ofJson : Json → NodeKind
  | .text s => (NodeKind.ofName? s).getD .invalid
  | j => NodeKind.ofNumber (j.asWord 8)

def Operator.ofJson (j : Json) : Operator := Operator.ofNumber (j.asWord 8)

def Flags.ofJson (j : Json) : Flags := ⟨j.asWord 16⟩

/-! ## The flat form -/

def Node.ofJson (j : Json) : Except NotationError Node := do
  let ids (key : String) : List NodeId := (j.field key).asList.map (·.asWord 32)
  let id (key : String) : NodeId := (j.field key).asWord 32
  let s (key : String) : String := (j.field key).asText
  let real ← if s "r" = "" then pure 0 else realBits (s "r")
  let x := j.field "x"
  return {
    kind := .ofJson (j.field "k"), span := .ofJson (j.field "s"), flags := .ofJson (j.field "f"),
    op := .ofJson (j.field "o"), name := s "n", path := (j.field "p").asTexts, label := s "l", bind := s "b",
    int := (j.field "i").asInt, real, text := s "t", params := (j.field "tp").asTexts, typeArgs := ids "ta",
    a := id "a", b := id "bb", c := id "c", d := id "d", list := ids "ls",
    native := if x.isNull then none else some { library := (x.field "lib").asText, symbol := (x.field "sym").asText } }

def Tree.ofFlat (j : Json) : Except NotationError Tree := do
  let nodes ← (j.field "nodes").asList.mapM Node.ofJson
  return {
    files := .ofJson (j.field "files") false, nodes := nodes.toArray,
    roots := (j.field "roots").asList.map (·.asWord 32) }

def Node.document (n : Node) : Json :=
  let ids (key : String) (ns : List NodeId) := Json.unlessEmpty key ns.isEmpty (.nats ns)
  let num (key : String) (i : Nat) := Json.unlessEmpty key (i = 0) (.nat i)
  let s (key v : String) := Json.unlessEmpty key (v = "") (.text v)
  .object ([("k", Json.text n.kind.name), ("s", Json.text n.span.render)] ++
    num "f" n.flags.bits ++ num "o" n.op.number ++ s "n" n.name ++ Json.unlessEmpty "p" n.path.isEmpty (.texts n.path) ++ s "l" n.label ++ s "b" n.bind ++
    Json.unlessEmpty "i" (n.int = 0) (.int n.int) ++ Json.unlessEmpty "r" (n.real = 0) (.text (hexText n.real.toNat)) ++
    s "t" n.text ++ Json.unlessEmpty "tp" n.params.isEmpty (.texts n.params) ++ ids "ta" n.typeArgs ++
    num "a" n.a ++ num "bb" n.b ++ num "c" n.c ++ num "d" n.d ++ ids "ls" n.list ++
    match n.native with
    | some x => [("x", Json.texts [x.library, x.symbol])]
    | none => [])

def Tree.document (t : Tree) : Json :=
  let file (f : File) : Json := .list [.text f.path, .text (Utf8.decode (f.content.getD [])), .nat f.flags]
  .object [("files", .list (t.files.files.toList.map file)), ("nodes", .list (t.nodes.toList.map Node.document)),
    ("roots", .nats t.roots)]

/-! ## The nested form -/

abbrev NotationM := StateT Builder (Except NotationError)

namespace Notation

def add (n : Node) : NotationM NodeId := modifyGet fun b => b.node n

/-- The node of a call, with `build` for the nested ones. -/
def call (build : Json → NotationM NodeId) (name : String) (args : List Json) : NotationM NodeId := do
  let arg (i : Nat) : Json := args.getD i .null
  let s (i : Nat) : String := (arg i).asText
  let e (i : Nat) : NotationM NodeId := build (arg i)
  let rest (i : Nat) : NotationM (List NodeId) := (args.drop i).mapM build
  let inner (i : Nat) : NotationM (List NodeId) := (arg i).asList.mapM build
  let op (i : Nat) : Operator := .ofJson (arg i)
  let change (f : NodeId → Builder → Builder) : NotationM NodeId := do
    let n ← e 0
    modify (f n)
    return n
  match name with
  | "flag" => change fun n b => b.addFlags n (.ofJson (arg 1))
  | "generic" => change fun n b => b.setParams n ((args.drop 1).map (·.asText))
  | "labeled" => change fun n b => b.setLabel n (s 1)
  | "where" =>
    let fn ← e 0
    let conds ← rest 1
    modify fun b => b.whereClause fn conds
    return fn
  | "ns" => add (.nameSpace (s 0) (← rest 1))
  | "using" => add (.importing (args.map (·.asText)))
  | "let" => add (.letDecl (s 0) (← e 1) (← e 2))
  | "const" => add (.constDecl (s 0) (← e 1) (← e 2))
  | "param" => add (.param (s 0) (← e 1))
  | "func" => add (.func (s 0) (← inner 1) (← e 2) (← e 3))
  | "lambda" => add (.func "" (← inner 0) (← e 1) (← e 2))
  | "extern" => add (.nativeFunc { library := s 0, symbol := s 1 } (s 2) (← inner 3) (← e 4))
  | "typedecl" => add (.typeDecl (s 0) (← e 1))
  | "alias" => add (.aliasDecl (s 0) (← e 1))
  | "union" => add (.unionDecl (s 0) (← rest 1))
  | "variant" => add (.variant (s 0) (← e 1))
  | "block" => add (.block (← rest 0))
  | "if" => add (.ifStmt (← e 0) (← e 1) (← e 2))
  | "while" => add (.whileLoop (← e 0) (← e 1))
  | "for" => add (.forLoop (← e 0) (← e 1) (← e 2) (← e 3))
  | "foreach" => add (.eachLoop (s 0) (s 1) (← e 2) (← e 3))
  | "match" => add (.matchStmt (← e 0) (← rest 1))
  | "case" => add (.matchArm (s 0) (s 1) (← e 2))
  | "break" => add (.breakStmt (s 0))
  | "continue" => add (.continueStmt (s 0))
  | "return" => add (.returnStmt (← e 0))
  | "expr" => add (.exprStmt (← e 0))
  | "int" => add (.intLit (arg 0).asInt)
  | "real" => add (.realLit (← realBits (s 0)))
  | "str" => add (.stringLit (s 0))
  | "bool" => add (.boolLit (arg 0).asBool)
  | "ident" => add (.ident (args.map (·.asText)))
  | "gident" => add (.globalIdent (args.map (·.asText)))
  | "inst" => add (.instanceIdent (s 0) (← rest 1))
  | "bin" => add (.binary (op 0) (← e 1) (← e 2))
  | "un" => add (.unary (op 0) (← e 1))
  | "assign" => add (.assign .none (← e 0) (← e 1))
  | "assignop" => add (.assign (op 0) (← e 1) (← e 2))
  | "call" => add (.call (← e 0) (← rest 1))
  | "index" => add (.index (← e 0) (← e 1))
  | "member" => add (.member (← e 0) (s 1))
  | "array" => add (.arrayLit (← rest 0))
  | "map" =>
    let parts ← rest 0
    modifyGet fun b => b.mapLit parts
  | "tuple" => add (.tupleLit (← rest 0))
  | "struct" => add (.structLit (← e 0) (← rest 1))
  | "field" => add (.field (s 0) (← e 1) (← e 2))
  | "cast" => add (.cast (← e 0) (← e 1))
  | "unpack" => add (.unpack (← e 0) (arg 1).asInt)
  | "is" => add (.typeIs (← e 0) (← e 1))
  | "T" => add (.typeName (args.map (·.asText)))
  | "TInst" => add (.instanceType (s 0) (← rest 1))
  | "tfunc" => add (.typeFunc (← e 0) (← rest 1))
  | "tarray" => add (.typeArray (← e 0))
  | "tmap" => add (.typeMap (← e 0) (← e 1))
  | "ttuple" => add (.typeTuple (← rest 0))
  | "tstruct" => add (.typeStruct (← rest 0))
  | _ => throw (.unknownCall name)

/-- The node of an expression: none, the number of one, or a call. -/
def expr : Nat → Json → NotationM NodeId
  | _, .null => return 0
  | _, .int n => return (Json.int n).asWord 32
  | fuel + 1, .list (.text name :: args) => call (expr fuel) name args
  | _, _ => throw .badNode

/-- Adds an item to the current file, or begins a file. -/
def item (j : Json) : NotationM Unit := do
  match j.asList with
  | [.text "file", .text path] => modify fun b => b.newFile path
  | _ =>
    let id ← expr j.depth j
    modify fun b => b.add id

end Notation

def Builder.ofItems (j : Json) : Except NotationError Builder :=
  (((j.field "items").asList.forM Notation.item).run (Builder.ofPath (j.field "path").asText)).map (·.2)

/-- Whether the document is a flat tree. -/
def isFlatTree (j : Json) : Bool := !((j.field "nodes").isNull && (j.field "files").isNull && (j.field "roots").isNull)

end TreeCompiler
