/-!
# Kinds of nodes and operators

`NodeKind` is the closed set of node shapes, numbered in the order of its constructors; a number outside the set is kept
as `other`. `Operator` is the operator of binary, unary and compound assignment nodes, numbered likewise.
-/

namespace TreeCompiler

inductive NodeKind
  | invalid
  | file
  | nameSpace
  | importing
  | block
  | letDecl
  | func
  | param
  | typeDecl
  | unionDecl
  | variant
  | ifStmt
  | whileLoop
  | forLoop
  | eachLoop
  | matchStmt
  | matchArm
  | breakStmt
  | continueStmt
  | returnStmt
  | exprStmt
  | intLit
  | realLit
  | stringLit
  | boolLit
  | ident
  | binary
  | unary
  | assign
  | call
  | index
  | member
  | arrayLit
  | mapLit
  | pair
  | tupleLit
  | structLit
  | field
  | cast
  | unpack
  | typeIs
  | whereClause
  | typeName
  | typeFunc
  | typeArray
  | typeMap
  | typeTuple
  | typeStruct
  | other (code : Nat)
deriving DecidableEq, Repr, Inhabited

namespace NodeKind

/-- The known kinds with their names, in the order of their numbers. -/
def table : List (NodeKind × String) :=
  [(invalid, "invalid"), (file, "file"), (nameSpace, "namespace"), (importing, "using"), (block, "block"),
   (letDecl, "let"), (func, "func"), (param, "param"), (typeDecl, "type-decl"), (unionDecl, "union-decl"),
   (variant, "variant"), (ifStmt, "if"), (whileLoop, "while"), (forLoop, "for"), (eachLoop, "foreach"),
   (matchStmt, "match"), (matchArm, "case"), (breakStmt, "break"), (continueStmt, "continue"),
   (returnStmt, "return"), (exprStmt, "expr-stmt"), (intLit, "int-lit"), (realLit, "real-lit"),
   (stringLit, "string-lit"), (boolLit, "bool-lit"), (ident, "ident"), (binary, "binary"), (unary, "unary"),
   (assign, "assign"), (call, "call"), (index, "index"), (member, "member"), (arrayLit, "array-lit"),
   (mapLit, "map-lit"), (pair, "pair"), (tupleLit, "tuple-lit"), (structLit, "struct-lit"), (field, "field"),
   (cast, "cast"), (unpack, "unpack"), (typeIs, "type-is"), (whereClause, "where"), (typeName, "type-name"),
   (typeFunc, "type-func"), (typeArray, "type-array"), (typeMap, "type-map"), (typeTuple, "type-tuple"),
   (typeStruct, "type-struct")]

def ofNumber (n : Nat) : NodeKind :=
  match table[n]? with
  | some row => row.1
  | none => other n

def number : NodeKind → Nat
  | other n => n
  | k => k.ctorIdx

def ofName? (s : String) : Option NodeKind := (table.find? (fun row => row.2 == s)).map (·.1)

def name (k : NodeKind) : String :=
  match table[k.number]? with
  | some row => row.2
  | none => "unknown"

/-- Kinds that a decoded unit may hold. -/
def isKnown (k : NodeKind) : Bool := 0 < k.number && k.number < 48

/-- Kinds whose nodes produce a value. -/
def isExpr (k : NodeKind) : Bool := (21 ≤ k.number && k.number ≤ 41) || k.number = 6

def isType (k : NodeKind) : Bool := 42 ≤ k.number && k.number ≤ 47

def isLiteral (k : NodeKind) : Bool := 21 ≤ k.number && k.number ≤ 24

end NodeKind

inductive Operator
  | none
  | add
  | sub
  | mul
  | div
  | mod
  | bitAnd
  | bitOr
  | bitXor
  | shl
  | shr
  | eq
  | ne
  | lt
  | le
  | gt
  | ge
  | and
  | or
  | neg
  | not
  | bitNot
  | other (code : Nat)
deriving DecidableEq, Repr, Inhabited

namespace Operator

def table : List (Operator × String) :=
  [(none, ""), (add, "+"), (sub, "-"), (mul, "*"), (div, "/"), (mod, "%"), (bitAnd, "&"), (bitOr, "|"), (bitXor, "^"),
   (shl, "<<"), (shr, ">>"), (eq, "=="), (ne, "!="), (lt, "<"), (le, "<="), (gt, ">"), (ge, ">="), (and, "&&"),
   (or, "||"), (neg, "-"), (not, "!"), (bitNot, "~")]

def ofNumber (n : Nat) : Operator :=
  match table[n]? with
  | some row => row.1
  | .none => other n

def number : Operator → Nat
  | other n => n
  | o => o.ctorIdx

def text (o : Operator) : String :=
  match table[o.number]? with
  | some row => row.2
  | .none => "?"

/-- The function name under which an overload of the operator is declared. -/
def functionName (o : Operator) : String := if o = neg then "operator neg" else "operator" ++ o.text

def isArithmetic (o : Operator) : Bool := 1 ≤ o.number && o.number ≤ 5

def isBitwise (o : Operator) : Bool := 6 ≤ o.number && o.number ≤ 10

def isComparison (o : Operator) : Bool := 11 ≤ o.number && o.number ≤ 16

def isLogical (o : Operator) : Bool := o = and || o = or

def isUnary (o : Operator) : Bool := 19 ≤ o.number && o.number ≤ 21

end Operator

end TreeCompiler
