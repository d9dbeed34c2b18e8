import TreeCompiler.Tree.Basic

/-!
# Types and their table

* `TypeKind` : the tag of a type, numbered in the order of its constructors;
* `Shape` : what a type is made of, with its parts given by number;
* `Ty` : a shape, and for a named type the declaring symbol with the name and type arguments it was declared with;
* `TypeTable` : one number for each distinct `Ty.key`, from 1 on; 0 stands for no type. The first eight are the
  built-in ones;
* `contains`, `isResolved`, `hasParams`, `format` : walks along `Ty.components`. A type is interned after its parts, so
  the size of the table bounds their depth.
-/

namespace TreeCompiler

inductive TypeKind
  | invalid
  | pending
  | dynamic
  | void
  | bool
  | int
  | real
  | handle
  | string
  | array
  | map
  | struct
  | tuple
  | func
  | union
  | param
  | other (code : Nat)
deriving DecidableEq, Repr, Inhabited

namespace TypeKind

def table : List (TypeKind × String) :=
  [(invalid, "invalid"), (pending, "pending"), (dynamic, "dynamic"), (void, "void"), (bool, "bool"), (int, "int"),
   (real, "real"), (handle, "handle"), (string, "string"), (array, "array"), (map, "map"), (struct, "struct"),
   (tuple, "tuple"), (func, "func"), (union, "union"), (param, "param")]

def ofNumber (n : Nat) : TypeKind :=
  match table[n]? with
  | some row => row.1
  | none => other n

def number : TypeKind → Nat
  | other n => n
  | k => k.ctorIdx

def name (k : TypeKind) : String :=
  match table[k.number]? with
  | some row => row.2
  | none => "unknown"

/-- Scalar kinds that have conversion rules. -/
def isPrimitive (k : TypeKind) : Bool := 4 ≤ k.number && k.number ≤ 8

def isNumeric (k : TypeKind) : Bool := k = int || k = real

end TypeKind

/-- A struct member or a union variant; a variant without payload has type 0. -/
structure TyField where
  name : String
  type : TypeId := 0
deriving DecidableEq, Repr, Inhabited

inductive Shape
  | scalar (kind : TypeKind)
  | array (elem : TypeId)
  | map (key elem : TypeId)
  | struct (fields : List TyField)
  | tuple (elems : List TypeId)
  | func (params : List TypeId) (variadic : Bool) (result : TypeId)
  | union (variants : List TyField)
  | param (index : Nat)
deriving DecidableEq, Repr, Inhabited

namespace Shape

/-- The shape of a kind with every part left empty. -/
def ofKind : TypeKind → Shape
  | .array => array 0
  | .map => map 0 0
  | .struct => struct []
  | .tuple => tuple []
  | .func => func [] false 0
  | .union => union []
  | .param => param 0
  | k => scalar k

def kind : Shape → TypeKind
  | scalar k => k
  | array _ => .array
  | map _ _ => .map
  | struct _ => .struct
  | tuple _ => .tuple
  | func _ _ _ => .func
  | union _ => .union
  | param _ => .param

def elem : Shape → TypeId
  | array e => e
  | map _ e => e
  | _ => 0

/-- The key type of a map; a placeholder keeps its index here. -/
def key : Shape → Nat
  | map k _ => k
  | param i => i
  | _ => 0

def result : Shape → TypeId
  | func _ _ r => r
  | _ => 0

def params : Shape → List TypeId
  | tuple es => es
  | func ps _ _ => ps
  | _ => []

def variadic : Shape → Bool
  | func _ v _ => v
  | _ => false

def fields : Shape → List TyField
  | struct fs => fs
  | union vs => vs
  | _ => []

end Shape

structure Ty where
  shape : Shape
  sym : Nat := 0
  name : String := ""
  args : List TypeId := []
deriving DecidableEq, Repr, Inhabited

namespace Ty

def kind (t : Ty) : TypeKind := t.shape.kind

def isNamed (t : Ty) : Bool := t.sym ≠ 0

/-- The type without its naming. -/
def bare (t : Ty) : Ty := if t.isNamed then { shape := t.shape } else t

/-- The position of a struct field or the tag of a union variant. -/
def fieldIndex? (t : Ty) (name : String) : Option Nat := t.shape.fields.findIdx? (·.name == name)

def keyId (id : Nat) : String := toString id ++ ","

/-- The text under which a type is interned. Placeholders are told apart by name and index. -/
def key (t : Ty) : String :=
  let s := t.shape
  String.singleton (Char.ofNat ((65 + t.kind.number) % 256)) ++ keyId s.elem ++ keyId s.key ++ keyId s.result ++ "(" ++
    String.join (s.params.map keyId) ++ (if s.variadic then "..." else "") ++ ")\x7b" ++
    String.join (s.fields.map fun f => f.name ++ ":" ++ keyId f.type) ++ "\x7d#" ++ toString t.sym ++ "<" ++
    String.join (t.args.map keyId) ++ ">" ++ (if t.kind = .param then t.name else "")

/-- The parts of a type in a fixed order. -/
def components (t : Ty) : List TypeId :=
  (match t.shape with
   | .array e => [e]
   | .map k e => [k, e]
   | .tuple es => es
   | .func ps _ r => ps ++ [r]
   | .struct fs => (fs.map (·.type)).filter (· ≠ 0)
   | .union vs => (vs.map (·.type)).filter (· ≠ 0)
   | _ => []) ++ t.args

end Ty

structure TypeTable where
  entries : Array (String × Ty) := #[]
deriving Inhabited

namespace TypeTable

def pending : TypeId := 1
def dynamic : TypeId := 2
def void : TypeId := 3
def bool : TypeId := 4
def int : TypeId := 5
def real : TypeId := 6
def handle : TypeId := 7
def string : TypeId := 8

def lookup? (t : TypeTable) (id : TypeId) : Option Ty := if id = 0 then none else t.entries[id - 1]?.map (·.2)

def size (t : TypeTable) : Nat := t.entries.size

def find? (t : TypeTable) (ty : Ty) : Option TypeId :=
  let key := ty.key
  (t.entries.findIdx? (fun e => e.1 == key)).map (· + 1)

/-- The number of a type, a new one on first sight. The invalid kind has none. -/
def intern (t : TypeTable) (ty : Ty) : TypeId × TypeTable :=
  if ty.kind = .invalid then (0, t)
  else match t.find? ty with
    | some id => (id, t)
    | none => (t.entries.size + 1, { entries := t.entries.push (ty.key, ty) })

/-- The table of the built-in types. -/
def initial : TypeTable :=
  [TypeKind.pending, .dynamic, .void, .bool, .int, .real, .handle, .string].foldl
    (fun t k => (t.intern { shape := .scalar k }).2) {}

def kind (t : TypeTable) (id : TypeId) : TypeKind := ((t.lookup? id).map (·.kind)).getD .invalid

def array (t : TypeTable) (elem : TypeId) : TypeId × TypeTable := t.intern { shape := .array elem }

def map (t : TypeTable) (key elem : TypeId) : TypeId × TypeTable := t.intern { shape := .map key elem }

def tuple (t : TypeTable) (elems : List TypeId) : TypeId × TypeTable := t.intern { shape := .tuple elems }

def func (t : TypeTable) (params : List TypeId) (variadic : Bool) (result : TypeId) : TypeId × TypeTable :=
  t.intern { shape := .func params variadic result }

def struct (t : TypeTable) (fields : List TyField) : TypeId × TypeTable := t.intern { shape := .struct fields }

def union (t : TypeTable) (variants : List TyField) : TypeId × TypeTable := t.intern { shape := .union variants }

/-- The placeholder of a template parameter. -/
def param (t : TypeTable) (name : String) (index : Nat) : TypeId × TypeTable :=
  t.intern { shape := .param index, name }

/-- Binds the structure of `base` to a declaring symbol; none when `base` is unknown. -/
def named? (t : TypeTable) (base : TypeId) (sym : Nat) (name : String) (args : List TypeId) :
    Option (TypeId × TypeTable) :=
  (t.lookup? base).map fun ty => t.intern { ty with sym, name, args }

/-- The number of the type without its naming. -/
def underlying (t : TypeTable) (id : TypeId) : TypeId × TypeTable :=
  match t.lookup? id with
  | none => (id, t)
  | some ty => if ty.isNamed then t.intern ty.bare else (id, t)

/-- The number that `underlying` gives, if it has been interned already. -/
def underlying? (t : TypeTable) (id : TypeId) : Option TypeId :=
  match t.lookup? id with
  | none => some id
  | some ty => if ty.isNamed then t.find? ty.bare else some id

/-- The structure of a type without its naming. -/
def bare? (t : TypeTable) (id : TypeId) : Option Ty := (t.lookup? id).map Ty.bare

def containsAux (t : TypeTable) (kind : TypeKind) : Nat → TypeId → Bool
  | 0, _ => false
  | fuel + 1, id =>
    match t.lookup? id with
    | none => kind = .pending
    | some ty => ty.kind = kind || ty.components.any (containsAux t kind fuel)

/-- Whether a kind occurs in a type; an unknown number counts as pending. -/
def contains (t : TypeTable) (id : TypeId) (kind : TypeKind) : Bool := t.containsAux kind (t.size + 2) id

def isResolved (t : TypeTable) (id : TypeId) : Bool := !t.contains id .pending

def hasParams (t : TypeTable) (id : TypeId) : Bool := t.contains id .param

def isNamed (t : TypeTable) (id : TypeId) : Bool := ((t.lookup? id).map (·.isNamed)).getD false

def formatAux (t : TypeTable) : Nat → TypeId → String
  | 0, _ => ""
  | fuel + 1, id =>
    match t.lookup? id with
    | none => "<none>"
    | some ty =>
      let list (ids : List TypeId) : String := String.intercalate ", " (ids.map (formatAux t fuel))
      let fields (fs : List TyField) : String := String.intercalate ", " (fs.map fun f =>
        f.name ++ (if f.type = 0 then "" else ": " ++ formatAux t fuel f.type))
      if ty.isNamed then ty.name ++ (if ty.args.isEmpty then "" else "<" ++ list ty.args ++ ">")
      else match ty.shape with
        | .scalar k => k.name
        | .array e => "array<" ++ formatAux t fuel e ++ ">"
        | .map k e => "map<" ++ formatAux t fuel k ++ ", " ++ formatAux t fuel e ++ ">"
        | .tuple es => "(" ++ list es ++ ")"
        | .func ps v r =>
          let shown := list ps
          let tail := if v then (if shown = "" then "..." else ", ...") else ""
          "func(" ++ shown ++ tail ++ "): " ++ formatAux t fuel r
        | .struct fs => "struct \x7b" ++ fields fs ++ "\x7d"
        | .union vs => "union \x7b" ++ fields vs ++ "\x7d"
        | .param _ => ty.name

/-- The text of a type in messages. -/
def format (t : TypeTable) (id : TypeId) : String := t.formatAux (t.size + 2) id

def formatList (t : TypeTable) (ids : List TypeId) : String := String.intercalate ", " (ids.map t.format)

end TypeTable

end TreeCompiler
