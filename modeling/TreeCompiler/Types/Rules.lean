import TreeCompiler.Types.Basic

/-!
# Acceptance, conversion and operator typing

* `accepts formal actual` : a value of type `actual` may stand where `formal` is expected, as it is;
* `implicitCast`, `explicitCast` : conversions without and with a written cast;
* `binaryUpper`, `unaryUpper` : the result type of an operator over built-in operands; `none` when no built-in rule
  applies.

A type with a pending part satisfies no check.
-/

namespace TreeCompiler

/-- Operators that share typing rules. -/
inductive OpClass
  | add
  | arith
  | bitwise
  | equality
  | ordering
  | logical
  | neg
  | not
  | bitNot
  | other (code : Nat)
deriving DecidableEq, Repr, Inhabited

namespace OpClass

def all : List OpClass := [add, arith, bitwise, equality, ordering, logical, neg, not, bitNot]

def ofNumber (n : Nat) : OpClass := (all[n]?).getD (other n)

def ofOperator : Operator → OpClass
  | .add => add
  | .sub | .mul | .div | .mod => arith
  | .eq | .ne => equality
  | .lt | .le | .gt | .ge => ordering
  | .and | .or => logical
  | .neg => neg
  | .not => not
  | .bitNot => bitNot
  | _ => bitwise

end OpClass

namespace TypeTable

def acceptsAux (t : TypeTable) : Nat → TypeId → TypeId → Bool
  | 0, _, _ => false
  | fuel + 1, formal, actual =>
    if !t.isResolved formal || !t.isResolved actual then false
    else if formal = actual then true
    else match t.lookup? formal, t.lookup? actual with
      | some f, some a =>
        if f.kind = .dynamic then true
        else if f.sym ≠ a.sym then false
        else match f.shape, a.shape with
          | .array fe, .array ae => acceptsAux t fuel fe ae
          | .map fk fe, .map ak ae => acceptsAux t fuel fk ak && acceptsAux t fuel fe ae
          | .tuple fs, .tuple as => fs.length = as.length && (fs.zip as).all fun p => acceptsAux t fuel p.1 p.2
          | .func fs fv fr, .func as av ar =>
            fv = av && fs.length = as.length && ((as.zip fs).all fun p => acceptsAux t fuel p.1 p.2) &&
              acceptsAux t fuel fr ar
          | _, _ => false
      | _, _ => false

def accepts (t : TypeTable) (formal actual : TypeId) : Bool := t.acceptsAux (t.size + 2) formal actual

/-- Strict identity, declaring symbol and type arguments included. -/
def isSame (t : TypeTable) (a b : TypeId) : Bool := a = b && t.isResolved a

def implicitKinds : TypeKind → TypeKind → Bool
  | .int, .real => true
  | .real, .int => true
  | .int, .handle => true
  | .handle, .int => true
  | .bool, .string => true
  | .int, .string => true
  | .real, .string => true
  | .handle, .string => true
  | _, _ => false

def explicitKinds : TypeKind → TypeKind → Bool
  | .bool, .int => true
  | .int, .bool => true
  | .real, .bool => true
  | .string, .bool => true
  | .string, .int => true
  | .string, .real => true
  | _, _ => false

def implicitCast (t : TypeTable) (source target : TypeId) : Bool :=
  if !t.isResolved source || !t.isResolved target then false
  else if source = target then true
  else
    let sk := t.kind source
    let tk := t.kind target
    if sk = .void || tk = .void then false
    else if sk = .dynamic || tk = .dynamic then true
    else if t.isNamed source || t.isNamed target then false
    else implicitKinds sk tk

/-- Also narrows, parses strings, and converts between a named type and its structure. Both structures are interned
on the way. -/
def explicitCast (t : TypeTable) (source target : TypeId) : Bool × TypeTable :=
  if t.implicitCast source target then (true, t)
  else if !t.isResolved source || !t.isResolved target then (false, t)
  else
    let (us, t) := t.underlying source
    let (ut, t) := t.underlying target
    if us = ut then (true, t)
    else (explicitKinds (t.kind us) (t.kind ut) || implicitKinds (t.kind us) (t.kind ut), t)

def numericUpper (l r : TypeKind) : Option TypeId :=
  if l = .int && r = .int then some int
  else if l.isNumeric && r.isNumeric then some real
  else none

def binaryUpper (t : TypeTable) (cls : OpClass) (l r : TypeId) : Option TypeId :=
  if !t.isResolved l || !t.isResolved r then some pending
  else if t.isNamed l || t.isNamed r then (if cls = .equality && l = r then some bool else none)
  else
    let lk := t.kind l
    let rk := t.kind r
    if lk = .dynamic || rk = .dynamic then
      match cls with
      | .equality | .ordering | .logical => some bool
      | _ => some dynamic
    else match cls with
      | .logical => if lk = .bool && rk = .bool then some bool else none
      | .equality => if l = r || lk.isNumeric && rk.isNumeric then some bool else none
      | .ordering => if lk.isNumeric && rk.isNumeric || lk = .string && rk = .string then some bool else none
      | .bitwise => if lk = .int && rk = .int then some int else none
      | .add =>
        if lk = .string && rk.isPrimitive || rk = .string && lk.isPrimitive then some string else numericUpper lk rk
      | .arith => numericUpper lk rk
      | _ => none

def unaryUpper (t : TypeTable) (cls : OpClass) (x : TypeId) : Option TypeId :=
  if !t.isResolved x then some pending
  else if t.isNamed x then none
  else
    let k := t.kind x
    if k = .dynamic then (if cls = .not then some bool else some x)
    else if cls = .neg && k.isNumeric then some x
    else if cls = .not && k = .bool then some x
    else if cls = .bitNot && k = .int then some x
    else none

end TypeTable

end TreeCompiler
