import TreeCompiler.Hash.Xxh3
import TreeCompiler.Types.Basic

/-!
# Fingerprints of types

`structural?` folds the structure of a type into 64 bits; types of equal structure get equal values. The index of a
placeholder is followed like the number of a type, so a type can be met again below itself, and then it has no value.
`Fingerprints` remembers which type each issued value stands for, and a new type whose value is taken gets the next free
one, so that an issued value names exactly one type, whatever hash function the values come from. `keyOf` is the memo key
of a vector of type arguments.
-/

namespace TreeCompiler

/-- The eight octets of a word, least significant first. -/
def wordBytes (v : UInt64) : Bytes := (List.range 8).map fun i => (v >>> (8 * i.toUInt64)).toUInt8

namespace TypeTable

/-- The structure of a type in 64 bits; none when the fuel ended before the recursion did. -/
def structuralAux (t : TypeTable) (digest : Bytes → UInt64) : Nat → TypeId → Option UInt64
  | 0, _ => none
  | fuel + 1, id =>
    match t.lookup? id with
    | none => some 0
    | some ty => do
      let s := ty.shape
      let part (c : TypeId) : Option Bytes := (structuralAux t digest fuel c).map wordBytes
      let fields ← s.fields.mapM fun f => (part f.type).map (Utf8.encode f.name ++ ·)
      let elem ← part s.elem
      let key ← part s.key
      let result ← part s.result
      let params ← s.params.mapM part
      let args ← ty.args.mapM part
      return digest (wordBytes ty.kind.number.toUInt64 ++ wordBytes ty.sym.toUInt64 ++
        (if s.variadic then wordBytes 1 else []) ++ (if ty.kind = .param then Utf8.encode ty.name else []) ++
        fields.flatten ++ elem ++ key ++ result ++ params.flatten ++ wordBytes ty.args.length.toUInt64 ++ args.flatten)

/-- A recursion that ends goes down through each type of the table once at most, and then to a number without one. -/
def structuralWith? (t : TypeTable) (digest : Bytes → UInt64) (id : TypeId) : Option UInt64 :=
  t.structuralAux digest (t.size + 2) id

def structural? (t : TypeTable) (id : TypeId) : Option UInt64 := t.structuralWith? Xxh3.hash id

/-- The value of a type that has one, else 0. -/
def structuralWith (t : TypeTable) (digest : Bytes → UInt64) (id : TypeId) : UInt64 := (t.structuralWith? digest id).getD 0

end TypeTable

/-- The values issued so far, the newest first. -/
structure Fingerprints where
  digest : Bytes → UInt64 := Xxh3.hash
  issued : List (TypeId × UInt64) := []
deriving Inhabited

namespace Fingerprints

def isTaken (f : Fingerprints) (v : UInt64) : Bool := f.issued.any fun e => e.2 == v

/-- The first value from `v` on that has not been issued. -/
def probe (f : Fingerprints) : Nat → UInt64 → UInt64
  | 0, v => v
  | fuel + 1, v => if f.isTaken v then probe f fuel (v + 1) else v

def hash (f : Fingerprints) (t : TypeTable) (id : TypeId) : UInt64 × Fingerprints :=
  match f.issued.find? (fun e => e.1 == id) with
  | some e => (e.2, f)
  | none =>
    let v := f.probe (f.issued.length + 1) (t.structuralWith f.digest id)
    (v, { f with issued := (id, v) :: f.issued })

/-- The value that is issued for a type, unless the recursion along its structure does not end. -/
def hash? (f : Fingerprints) (t : TypeTable) (id : TypeId) : Option (UInt64 × Fingerprints) :=
  if f.issued.any (fun e => e.1 == id) || (t.structuralWith? f.digest id).isSome then some (f.hash t id) else none

def hashAll (f : Fingerprints) (t : TypeTable) : List TypeId → List UInt64 × Fingerprints
  | [] => ([], f)
  | id :: rest =>
    let (v, f) := f.hash t id
    let (vs, f) := f.hashAll t rest
    (v :: vs, f)

def keyOf (f : Fingerprints) (t : TypeTable) (ids : List TypeId) : String × Fingerprints :=
  let (vs, f) := f.hashAll t ids
  (String.intercalate "," (vs.map fun v => hexText v.toNat), f)

/-- The memo key of a vector whose types all have values. -/
def keyOf? (f : Fingerprints) (t : TypeTable) (ids : List TypeId) : Option (String × Fingerprints) :=
  if ids.all fun id => (f.hash? t id).isSome then some (f.keyOf t ids) else none

end Fingerprints

end TreeCompiler
