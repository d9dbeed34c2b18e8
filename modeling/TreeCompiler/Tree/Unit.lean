import TreeCompiler.Tree.Basic
import TreeCompiler.Wire.Record

/-!
# Units on the wire

A unit is the encoded form of a tree: its files, its nodes in order and its roots.

* `Tree.encodeUnit` : writes a tree; what the analysis added is left out, and so is a real of either sign of zero;
* `Tree.decodeUnit` : reads a tree and validates it: roots are file nodes, kinds are known, and files and children
  exist. Nothing else is checked, so children may be shared or run in circles.
-/

namespace TreeCompiler

/-- The version of the node layout. -/
def unitVersion : Nat := 1

inductive UnitError
  | malformed
  | version (found : Int)
  | badRoot (root : NodeId)
  | badKind (node : NodeId) (kind : Nat)
  | missingFile (node : NodeId) (file : Nat)
  | missingNode (owner ref : NodeId)
deriving DecidableEq, Repr, Inhabited

namespace UnitError

def message : UnitError → String
  | malformed => "decode unit: malformed"
  | version n => "unsupported unit version: " ++ toString n
  | badRoot r => "decode unit: root " ++ toString r ++ " is not a file node"
  | badKind n k => "decode unit: node " ++ toString n ++ " has invalid kind " ++ toString k
  | missingFile n f => "decode unit: node " ++ toString n ++ " references missing file " ++ toString f
  | missingNode o r => "decode unit: node " ++ toString o ++ " references missing node " ++ toString r

end UnitError

/-! ## Writing -/

/-- A span is written as its three numbers. -/
def Span.toWire (s : Span) : Wire := .ofNats [s.file, s.start, s.stop]

/-- Whether the bits are those of a zero of either sign. -/
def isZeroReal (bits : UInt64) : Bool := bits = 0 || bits = 0x8000000000000000

def Node.toWire (n : Node) : Wire :=
  let nodes (name : String) (ids : List NodeId) := Wire.unlessEmpty name ids.isEmpty (.ofNats ids)
  let child (name : String) (id : NodeId) := Wire.unlessEmpty name (id = 0) (.ofNat id)
  let word (name : String) (s : String) := Wire.unlessEmpty name (s = "") (.ofText s)
  let words (name : String) (ss : List String) := Wire.unlessEmpty name ss.isEmpty (.ofTexts ss)
  .record <|
    [("k", .ofNat n.kind.number), ("s", n.span.toWire)] ++
    Wire.unlessEmpty "f" (n.flags.bits = 0) (.ofNat n.flags.bits) ++
    Wire.unlessEmpty "o" (n.op.number = 0) (.ofNat n.op.number) ++
    word "n" n.name ++ words "p" n.path ++ word "l" n.label ++ word "b" n.bind ++
    Wire.unlessEmpty "i" (n.int = 0) (.int n.int) ++
    Wire.unlessEmpty "r" (isZeroReal n.real) (.real n.real) ++
    word "t" n.text ++ words "tp" n.params ++ nodes "ta" n.typeArgs ++
    child "a" n.a ++ child "bb" n.b ++ child "c" n.c ++ child "d" n.d ++ nodes "ls" n.list ++
    (match n.native with
     | some x => [("x", .record [("lib", .ofText x.library), ("sym", .ofText x.symbol)])]
     | none => [])

def File.toWire (f : File) : Wire :=
  let content := f.content.getD []
  .record ([("path", Wire.ofText f.path)] ++ Wire.unlessEmpty "content" content.isEmpty (.blob content))

def Tree.encodeUnit (t : Tree) : Bytes :=
  (Wire.record
    [("version", .ofNat unitVersion), ("files", .orNil .array (t.files.files.toList.map File.toWire)),
     ("nodes", .array (t.nodes.toList.map Node.toWire)), ("roots", .orNil .ofNats t.roots)]).encode

/-! ## Reading -/

def Span.over? : Span → Wire → Option Span :=
  Wire.overRecord? ["File", "Start", "End"] {} fun name w s =>
    match name with
    | "File" => do return { s with file := ← w.toNat? 32 }
    | "Start" => do return { s with start := ← w.toNat? 32 }
    | "End" => do return { s with stop := ← w.toNat? 32 }
    | _ => some s

def NativeName.over? : NativeName → Wire → Option NativeName :=
  Wire.overRecord? ["lib", "sym"] {} fun name w x =>
    match name with
    | "lib" => do return { x with library := ← w.toText? }
    | "sym" => do return { x with symbol := ← w.toText? }
    | _ => some x

def Node.fieldNames : List String :=
  ["k", "s", "f", "o", "n", "p", "l", "b", "i", "r", "t", "tp", "ta", "a", "bb", "c", "d", "ls", "x"]

def Node.setField (name : String) (w : Wire) (n : Node) : Option Node :=
  match name with
  | "k" => do return { n with kind := NodeKind.ofNumber (← w.toNat? 8) }
  | "s" => do return { n with span := ← n.span.over? w }
  | "f" => do return { n with flags := ⟨← w.toNat? 16⟩ }
  | "o" => do return { n with op := Operator.ofNumber (← w.toNat? 8) }
  | "n" => do return { n with name := ← w.toText? }
  | "p" => do return { n with path := ← Wire.overTexts? n.path w }
  | "l" => do return { n with label := ← w.toText? }
  | "b" => do return { n with bind := ← w.toText? }
  | "i" => do return { n with int := ← w.toSigned? 64 }
  | "r" => do return { n with real := ← w.toReal? }
  | "t" => do return { n with text := ← w.toText? }
  | "tp" => do return { n with params := ← Wire.overTexts? n.params w }
  | "ta" => do return { n with typeArgs := ← Wire.elements? (Wire.toNat? 32) w }
  | "a" => do return { n with a := ← w.toNat? 32 }
  | "bb" => do return { n with b := ← w.toNat? 32 }
  | "c" => do return { n with c := ← w.toNat? 32 }
  | "d" => do return { n with d := ← w.toNat? 32 }
  | "ls" => do return { n with list := ← Wire.elements? (Wire.toNat? 32) w }
  | "x" => do return { n with native := ← Wire.overOptional? {} NativeName.over? n.native w }
  | _ => some n

/-- A node without anything in it. -/
def Node.blank : Node := { kind := .invalid }

def Node.over? : Node → Wire → Option Node := Wire.overRecord? Node.fieldNames Node.blank Node.setField

/-- A file as it was read: its path and its content, which may be missing. -/
abbrev RawFile := String × Option Bytes

def RawFile.over? : RawFile → Wire → Option RawFile :=
  Wire.overRecord? ["path", "content"] ("", none) fun name w f =>
    match name with
    | "path" => do return (← w.toText?, f.2)
    | "content" => do return (f.1, ← w.toBytes?)
    | _ => some f

/-- A unit as it was read, before validation. -/
structure RawUnit where
  version : Int := 0
  files : Wire.Slots RawFile := {}
  nodes : Wire.Slots Node := {}
  roots : List NodeId := []
deriving Inhabited

def RawUnit.ofWire? : Wire → Option RawUnit :=
  Wire.overRecord? ["version", "files", "nodes", "roots"] {} (fun name w u =>
    match name with
    | "version" => do return { u with version := ← w.toSigned? 64 }
    | "files" => do return { u with files := ← u.files.over? ("", none) RawFile.over? w }
    | "nodes" => do return { u with nodes := ← u.nodes.over? Node.blank Node.over? w }
    | "roots" => do return { u with roots := ← Wire.elements? (Wire.toNat? 32) w }
    | _ => some u) {}

namespace Tree

def validateRoot (t : Tree) (r : NodeId) : Except UnitError Unit :=
  if t.kind r = .file then .ok () else .error (.badRoot r)

def validateNode (t : Tree) (id : NodeId) (n : Node) : Except UnitError Unit := do
  if !n.kind.isKnown then throw (.badKind id n.kind.number)
  if t.files.size ≤ n.span.file && 0 < t.files.size then throw (.missingFile id n.span.file)
  match n.children.find? (fun c => t.size < c) with
  | some c => throw (.missingNode id c)
  | none => return

/-- Roots first, then the nodes in order. -/
def validate (t : Tree) : Except UnitError Unit := do
  t.roots.forM t.validateRoot
  t.nodes.toList.zipIdx.forM fun (n, i) => t.validateNode (i + 1) n

def ofRaw (u : RawUnit) : Tree :=
  { files := u.files.rows.foldl (fun fs (path, content) => fs.add path content false) {}
    nodes := u.nodes.rows.toArray
    roots := u.roots }

def decodeUnit (bs : Bytes) : Except UnitError Tree := do
  let some (w, _) := Wire.decode? bs | throw .malformed
  let some u := RawUnit.ofWire? w | throw .malformed
  if u.version ≠ unitVersion then throw (.version u.version)
  let t := ofRaw u
  t.validate
  return t

end Tree

end TreeCompiler
