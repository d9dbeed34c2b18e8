import TreeCompiler.Source.File
import TreeCompiler.Tree.Kind

/-!
# Nodes and trees

A `Tree` holds every node of a unit in one table, addressed by 1-based numbers; 0 stands for no node. All nodes have
one shape, and the kind says which slots mean what:

* `a`, `b`, `c`, `d`, `typeArgs`, `list` : children; `children` lists the filled ones in evaluation order;
* `valueType`, `completed` : owned by the analysis.

References are numbers, so a tree read from outside may share children or run in circles; walks take fuel, and the
number of nodes is enough of it for a tree without circles.
-/

namespace TreeCompiler

abbrev NodeId := Nat

abbrev TypeId := Nat

/-- Declaration modifiers and marks of the analysis. -/
structure Flags where
  bits : Nat := 0
deriving DecidableEq, Repr, Inhabited

namespace Flags

def const : Flags := ⟨1⟩
def static : Flags := ⟨2⟩
def priv : Flags := ⟨4⟩
def prot : Flags := ⟨8⟩
def native : Flags := ⟨16⟩
def variadic : Flags := ⟨32⟩
def fromGlobal : Flags := ⟨64⟩
def aliased : Flags := ⟨128⟩
def implicit : Flags := ⟨256⟩
def folded : Flags := ⟨512⟩

def has (f m : Flags) : Bool := f.bits &&& m.bits ≠ 0

def union (f m : Flags) : Flags := ⟨f.bits ||| m.bits⟩

end Flags

/-- The library and symbol a native function is bound to. -/
structure NativeName where
  library : String := ""
  symbol : String := ""
deriving DecidableEq, Repr, Inhabited

structure Node where
  kind : NodeKind
  span : Span := {}
  flags : Flags := {}
  op : Operator := .none
  name : String := ""
  path : List String := []
  label : String := ""
  bind : String := ""
  int : Int := 0
  real : UInt64 := 0
  text : String := ""
  params : List String := []
  typeArgs : List NodeId := []
  a : NodeId := 0
  b : NodeId := 0
  c : NodeId := 0
  d : NodeId := 0
  list : List NodeId := []
  native : Option NativeName := none
  valueType : TypeId := 0
  completed : Bool := false
deriving DecidableEq, Repr, Inhabited

namespace Node

def isGeneric (n : Node) : Bool := !n.params.isEmpty

def fromGlobal (n : Node) : Bool := n.flags.has .fromGlobal

/-- Path and name joined by `::`. -/
def qualifiedName (n : Node) : String :=
  (if n.fromGlobal then "::" else "") ++ String.join (n.path.map (· ++ "::")) ++ n.name

def children (n : Node) : List NodeId := [n.a, n.b, n.c, n.d].filter (· ≠ 0) ++ n.typeArgs ++ n.list

end Node

structure Tree where
  files : FileTable := {}
  nodes : Array Node := #[]
  roots : List NodeId := []
deriving Inhabited

namespace Tree

def get? (t : Tree) (id : NodeId) : Option Node := if id = 0 then none else t.nodes[id - 1]?

def size (t : Tree) : Nat := t.nodes.size

def push (t : Tree) (n : Node) : NodeId × Tree := (t.nodes.size + 1, { t with nodes := t.nodes.push n })

def modify (t : Tree) (id : NodeId) (f : Node → Node) : Tree :=
  if id = 0 then t else { t with nodes := t.nodes.modify (id - 1) f }

def kind (t : Tree) (id : NodeId) : NodeKind := ((t.get? id).map (·.kind)).getD .invalid

def span (t : Tree) (id : NodeId) : Span := ((t.get? id).map (·.span)).getD {}

/-- The filled child slots in evaluation order; none for a missing node. -/
def children? (t : Tree) (id : NodeId) : Option (List NodeId) := (t.get? id).map (·.children)

/-- The nodes met depth first from `id`, not descending below those that `enter` refuses. `none` when the fuel runs
out, which a tree without circles never does on `size + 1`. -/
def walkAux (t : Tree) (enter : NodeId → Bool) : Nat → NodeId → Option (List NodeId)
  | 0, _ => none
  | fuel + 1, id =>
    if id = 0 then some []
    else if enter id then
      (((t.children? id).getD []).mapM (walkAux t enter fuel)).map fun below => id :: below.flatten
    else some [id]

def walk (t : Tree) (enter : NodeId → Bool) (id : NodeId) : Option (List NodeId) := t.walkAux enter (t.size + 2) id

/-- Copies a list of subtrees from left to right with the given copier. -/
def copyListWith (copy : Tree → NodeId → Option (NodeId × Tree)) : Tree → List NodeId → Option (List NodeId × Tree)
  | t, [] => some ([], t)
  | t, id :: rest => do
    let (id', t) ← copy t id
    let (rest', t) ← copyListWith copy t rest
    return (id' :: rest', t)

/-- Copies the subtree at `id` into new nodes, children before their parent; the analysis marks are reset. -/
def copyAux : Nat → Tree → NodeId → Option (NodeId × Tree)
  | 0, _, _ => none
  | fuel + 1, t, id =>
    match t.get? id with
    | none => some (0, t)
    | some n => do
      let (a, t) ← copyAux fuel t n.a
      let (b, t) ← copyAux fuel t n.b
      let (c, t) ← copyAux fuel t n.c
      let (d, t) ← copyAux fuel t n.d
      let (typeArgs, t) ← copyListWith (copyAux fuel) t n.typeArgs
      let (list, t) ← copyListWith (copyAux fuel) t n.list
      return t.push { n with a, b, c, d, typeArgs, list, valueType := 0, completed := false }

/-- `none` when the subtree runs in a circle. -/
def copy (t : Tree) (id : NodeId) : Option (NodeId × Tree) := copyAux (t.size + 2) t id

end Tree

end TreeCompiler
