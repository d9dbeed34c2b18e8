import TreeCompiler.Source.Names
import TreeCompiler.Tree.Basic

/-!
# Symbols and scopes

* `Symbol` : a named entity, with what it declares, where it is stored and, for a generic, its template;
* `Storage` : a global slot, a frame offset or a capture index. Arguments have positive frame offsets from 2 on, other
  locals zero or negative ones;
* `Scope` : the names, namespaces and imports declared directly in one lexical scope.
-/

namespace TreeCompiler

abbrev SymbolId := Nat

abbrev ScopeId := Nat

inductive SymbolKind
  | invalid
  | type
  | var
  | function
  | overloads
  | variant
deriving DecidableEq, Repr, Inhabited

namespace SymbolKind

def all : List SymbolKind := [invalid, type, var, function, overloads, variant]

def ofNumber (n : Nat) : SymbolKind := (all[n]?).getD invalid

def name : SymbolKind → String
  | type => "type"
  | var => "variable"
  | function => "function"
  | overloads => "overload set"
  | variant => "variant"
  | invalid => "invalid"

end SymbolKind

/-- A set of access attributes. -/
structure Attrs where
  bits : Nat := 0
deriving DecidableEq, Repr, Inhabited

namespace Attrs

def const : Attrs := ⟨1⟩
def static : Attrs := ⟨2⟩
def native : Attrs := ⟨4⟩
def priv : Attrs := ⟨8⟩
def prot : Attrs := ⟨16⟩

def has (a m : Attrs) : Bool := a.bits &&& m.bits ≠ 0

def ofFlags (f : Flags) : Attrs :=
  ⟨(if f.has .const then 1 else 0) + (if f.has .static then 2 else 0) + (if f.has .native then 4 else 0) +
    (if f.has .priv then 8 else 0) + (if f.has .prot then 16 else 0)⟩

end Attrs

inductive Storage
  | none
  | global (slot : Int)
  | frame (offset : Int)
  | captured (index : Int)
deriving DecidableEq, Repr, Inhabited

/-- A number with its sign always written. -/
def signed (n : Int) : String := if n < 0 then toString n else "+" ++ toString n

namespace Storage

def ofNumbers (kind : Nat) (index : Int) : Storage :=
  match kind with
  | 1 => global index
  | 2 => frame index
  | 3 => captured index
  | _ => none

/-- The frame offset of an argument before captures move it. -/
def argOffset (i : Int) : Int := 2 + i

def isArg : Storage → Bool
  | frame off => 0 < off
  | _ => false

def isFrame : Storage → Bool
  | frame _ => true
  | _ => false

def render : Storage → String
  | global i => "global[" ++ toString i ++ "]"
  | frame off => "bp" ++ signed off
  | captured i => "capture[" ++ toString i ++ "]"
  | none => "none"

end Storage

/-- Attached to generic declarations: parameters, the instances made so far with their argument keys, in order, and the
parameter types with placeholders once they are known. -/
structure Template where
  params : List String
  instances : List (String × SymbolId) := []
  pattern : Option (List TypeId) := none
deriving Repr, Inhabited

structure Symbol where
  name : NameId
  kind : SymbolKind
  attrs : Attrs := {}
  scope : ScopeId := 0
  decl : NodeId := 0
  span : Span := {}
  type : TypeId := 0
  storage : Storage := .none
  seq : Nat := 0
  overloads : List SymbolId := []
  set : SymbolId := 0
  body : ScopeId := 0
  handle : Nat := 0
  template : Option Template := none
  origin : SymbolId := 0
  templateArgs : List TypeId := []
  rejected : Bool := false
  tag : Nat := 0
deriving Repr, Inhabited

namespace Symbol

def isGeneric (s : Symbol) : Bool := s.template.isSome

end Symbol

inductive ScopeKind
  | invalid
  | nameSpace
  | function
  | block
  | template
deriving DecidableEq, Repr, Inhabited

namespace ScopeKind

def all : List ScopeKind := [invalid, nameSpace, function, block, template]

def ofNumber (n : Nat) : ScopeKind := (all[n]?).getD invalid

def name : ScopeKind → String
  | nameSpace => "namespace"
  | function => "function"
  | block => "block"
  | template => "template"
  | invalid => "invalid"

end ScopeKind

/-- An import of the names of a namespace. -/
structure Import where
  path : List String
  fromGlobal : Bool := false
  span : Span := {}
deriving DecidableEq, Repr, Inhabited

/-- `captures` pairs each captured outer symbol with its copy inside the function. -/
structure Scope where
  kind : ScopeKind
  parent : ScopeId := 0
  name : String := ""
  span : Span := {}
  names : List (NameId × SymbolId) := []
  namespaces : List (NameId × ScopeId) := []
  imports : List Import := []
  func : SymbolId := 0
  anonymous : Bool := false
  stackTop : Nat := 0
  maxStack : Nat := 0
  captures : List (SymbolId × SymbolId) := []
  stackBase : Nat := 0
  introduced : List SymbolId := []
deriving Repr, Inhabited

namespace Scope

def isLocal (s : Scope) : Bool := s.kind = .function || s.kind = .block

def symbol? (s : Scope) (name : NameId) : Option SymbolId := s.names.lookup name

def nameSpace? (s : Scope) (name : NameId) : Option ScopeId := s.namespaces.lookup name

end Scope

end TreeCompiler
