import TreeCompiler.Analysis.State
import TreeCompiler.Build.Project
import TreeCompiler.Code.Program
import TreeCompiler.Debug.Table
import TreeCompiler.Diagnostic.Document
import TreeCompiler.Scope.Lookup
import TreeCompiler.Text.Json
import TreeCompiler.Trace.Event
import TreeCompiler.Types.Basic

/-!
# Types, symbols, events, programs and builds as documents

How each noun of the compiler is written as a document, and read from one where it is an input:

* `Ty.document` shows a type of the table with its parts by number;
* `ScopeTable.symbolOfJson` reads a symbol by the names of its parts, `Found.document` shows the result of a lookup;
* `TraceEvent.document` is an event without its times; `TraceEvent.ofJson` reads a whole one;
* `Program.document` and `DebugTable.document` are readable forms of both; `Program.ofJson` reads a program whose
  instructions are given by numbers;
* `AnalysisResult.members` lists what an analysis found: the nodes with what was attached to them, one line each, the
  symbols after the built-in types, and the scopes. What is empty is left out;
* `BuildEvent.row` and `UnitResult.members` show a step of a build and its result for a unit, failures apart.
-/

namespace TreeCompiler

/-! ### Types -/

def Ty.document (ty : Ty) : Json :=
  .object [("kind", .text ty.kind.name), ("elem", .nat ty.shape.elem), ("key", .nat ty.shape.key),
    ("params", .nats ty.shape.params), ("variadic", .bool ty.shape.variadic), ("result", .nat ty.shape.result),
    ("fields", .list (ty.shape.fields.map fun f => .list [.text f.name, .nat f.type])), ("sym", .nat ty.sym),
    ("name", .text ty.name), ("args", .nats ty.args), ("named", .bool ty.isNamed)]

/-! ### Symbols and lookups -/

def ScopeTable.symbolOfJson (tab : ScopeTable) (j : Json) : Symbol × ScopeTable :=
  let (name, tab) := tab.intern (j.str "name")
  let kind := (SymbolKind.all.find? (·.name == j.str "kind")).getD .invalid
  let storage (i : Nat) : Json := (j.field "storage").asList.getD i .null
  ({ name, kind, attrs := ⟨(j.field "attrs").asWord 8⟩, span := { file := (j.field "file").asWord 32 },
     seq := (j.field "seq").asWord 32, storage := .ofNumbers ((storage 0).asWord 8) (storage 1).asInt }, tab)

def Found.document (r : Found) : Json :=
  .object [("symbol", .nat r.symbol), ("found", .bool r.isFound), ("denied", .bool r.denied),
    ("ambiguous", .nats r.ambiguous)]

/-! ### Trace events -/

namespace TraceEvent

def document (ev : TraceEvent) : Json :=
  .object ([("seq", Json.nat ev.seq), ("kind", Json.text ev.kind.name), ("scope", Json.text (TraceScope.name ev.scope)),
      ("span", Json.nat ev.span), ("name", Json.text ev.name)] ++
    Json.unlessEmpty "parent" (ev.parent = 0) (.nat ev.parent) ++
    Json.unlessEmpty "detail" (ev.detail = "") (.text ev.detail) ++
    Json.unlessEmpty "extra" ev.extra.isEmpty (.object (ev.extra.map fun (k, v) => (k, Json.text v))))

def ofJson (j : Json) : TraceEvent :=
  { seq := (j.field "seq").asWord 64, kind := .ofNumber ((j.field "kind").asWord 8), scope := (j.field "scope").asWord 8
    span := (j.field "span").asWord 64, parent := (j.field "parent").asWord 64, name := (j.field "name").asText
    detail := (j.field "detail").asText, timeMicros := (j.field "time_us").asInt
    elapsedNanos := (j.field "elapsed_ns").asInt
    extra := (j.field "extra").asMembers.map fun (k, v) => (k, v.asText) }

end TraceEvent

/-! ### Programs and debug tables -/

namespace Program

def document (p : Program) : Json :=
  .object [("code", .texts (p.code.toList.map (·.render))), ("strings", .texts p.strings.toList),
    ("funcs", .list (p.funcs.toList.map fun f =>
      .list [.text f.name, .int f.entry, .int f.params, .int f.captures, .int f.frame])),
    ("natives", .list (p.natives.toList.map fun n => .texts [n.library, n.symbol, toString n.handle])),
    ("types", .list (p.types.toList.map fun t => .list [.text t.kind, .text t.name, .texts t.fields])),
    ("globals", .nat p.globals), ("entry", .int p.entry)]

end Program

def DebugTable.document (d : DebugTable) : Json :=
  .object [("entries", .list (d.entries.toList.map fun e => .list [.int e.ip, .text e.span.render, .text e.pos.render])),
    ("funcs", .list (d.funcs.toList.map fun f => .list [.text f.name, .int f.start, .int f.stop, .text f.pos.render]))]

/-- An operand by the number of its kind and its value; a label by its number behind `L`. -/
def Operand.ofJson (j : Json) : Operand :=
  match j.asList with
  | .text "L" :: n :: _ => .label (n.asWord 32)
  | kind :: rest => { kind := .ofNumber (kind.asWord 8), val := (rest.getD 0 .null).asInt }
  | [] => .none

def Instr.ofJson (j : Json) : Instr :=
  let part (i : Nat) : Json := j.asList.getD i .null
  { op := .ofNumber ((part 0).asWord 8), a := .ofJson (part 1), b := .ofJson (part 2), c := .ofJson (part 3) }

/-- A native handle as a number or as its digits. -/
def handleOfJson : Json → Nat
  | .text s => s.toNat?.getD 0
  | j => j.asWord 64

def Program.ofJson (j : Json) : Program :=
  let rows {α : Type} (key : String) (make : (Nat → Json) → α) : Array α :=
    ((j.field key).asList.map fun row => make fun i => row.asList.getD i .null).toArray
  { version := (j.field "version").asInt
    code := ((j.field "code").asList.map Instr.ofJson).toArray
    strings := (j.field "strings").asTexts.toArray
    funcs := rows "funcs" fun f => ⟨(f 0).asText, (f 1).asInt, (f 2).asInt, (f 3).asInt, (f 4).asInt⟩
    natives := rows "natives" fun n => ⟨(n 0).asText, (n 1).asText, handleOfJson (n 2)⟩
    types := rows "types" fun t => ⟨(t 1).asText, (t 0).asText, (t 2).asTexts⟩
    globals := (j.field "globals").asWord 32
    entry := (j.field "entry").asInt }

/-! ### The outcome of an analysis -/

namespace AnalysisResult

/-- Kind, children, attachments and type of a node on one line. -/
def nodeLine (r : AnalysisResult) (id : NodeId) (n : Node) : String :=
  let child (label : String) (c : NodeId) : String := if c = 0 then "" else " " ++ label ++ "=" ++ toString c
  let entry (label : String) (v : Option String) : String :=
    match v with
    | some v => " " ++ label ++ "=" ++ v
    | none => ""
  let call (c : CallInfo) : String :=
    toString c.kind.number ++ "/" ++ toString c.target ++ "/" ++ (if c.method then "true" else "false")
  toString id ++ " " ++ n.kind.name ++ child "A" n.a ++ child "B" n.b ++ child "C" n.c ++ child "D" n.d ++
    (if n.list.isEmpty then "" else " L=[" ++ String.intercalate " " (n.list.map toString) ++ "]") ++
    (if n.flags.has .implicit then " implicit" else "") ++
    (if n.flags.has .folded then " fold=" ++ toString n.int else "") ++
    entry "bind" ((r.bindings.get? id).map toString) ++ entry "decl" ((r.decls.get? id).map toString) ++
    entry "key" ((r.keys.get? id).map toString) ++ entry "func" ((r.funcs.get? id).map toString) ++
    entry "call" ((r.calls.get? id).map call) ++ entry "field" ((r.fields.get? id).map toString) ++
    entry "tag" ((r.cases.get? id).map toString) ++ (if n.completed then " : " else " ? ") ++
    (if n.valueType = 0 then "" else r.types.format n.valueType)

def symbolDocument (r : AnalysisResult) (id : SymbolId) (s : Symbol) : Json :=
  let types (ts : List TypeId) : Json := .texts (ts.map r.types.format)
  let num (key : String) (n : Nat) := Json.unlessEmpty key (n = 0) (.nat n)
  .object ([("id", Json.nat id), ("name", Json.text (r.scopes.names.text s.name)), ("kind", Json.text s.kind.name),
      ("scope", Json.nat s.scope), ("type", Json.text (r.types.format s.type)), ("storage", Json.text s.storage.render)] ++
    num "attrs" s.attrs.bits ++ num "decl" s.decl ++ num "seq" s.seq ++
    Json.unlessEmpty "overloads" s.overloads.isEmpty (.nats s.overloads) ++ num "set" s.set ++ num "body" s.body ++
    Json.unlessEmpty "extern" (s.handle = 0) (.text (toString s.handle)) ++ num "origin" s.origin ++ num "tag" s.tag ++
    Json.unlessEmpty "rejected" (!s.rejected) (.bool true) ++
    Json.unlessEmpty "local" (!s.storage.isFrame) (.bool true) ++
    (match s.template with
     | none => []
     | some t => [("params", Json.texts t.params), ("instances", Json.nats (t.instances.map (·.2)))] ++
        match t.pattern with
        | some p => [("pattern", types p)]
        | none => []) ++
    Json.unlessEmpty "args" s.templateArgs.isEmpty (types s.templateArgs))

end AnalysisResult

namespace ScopeTable

/-- The entries of the built-in types in the global namespace. -/
def builtinEntries : List String := ["int=1", "real=2", "bool=3", "string=4", "handle=5", "dynamic=6", "void=7"]

def scopeDocument (tab : ScopeTable) (id : ScopeId) (s : Scope) : Json :=
  let entries (es : List (NameId × Nat)) : List String := es.map fun (n, i) => tab.names.text n ++ "=" ++ toString i
  let names := (entries s.names).filter fun e => id ≠ root || !builtinEntries.contains e
  .object ([("id", Json.nat id), ("kind", Json.text s.kind.name), ("parent", Json.nat s.parent),
      ("path", Json.text (tab.qualifiedName id)), ("local", Json.bool s.isLocal),
      ("names", Json.texts (names.mergeSort textLe))] ++
    Json.unlessEmpty "namespaces" s.namespaces.isEmpty (.texts ((entries s.namespaces).mergeSort textLe)) ++
    Json.unlessEmpty "usings" s.imports.isEmpty
      (.list (s.imports.map fun u => .list [.texts u.path, .bool u.fromGlobal])) ++
    match s.kind with
    | .function => [("func", Json.nat s.func), ("anonymous", Json.bool s.anonymous),
        ("stack", Json.nats [s.stackTop, s.maxStack]), ("captures", Json.nats (s.captures.map (·.1)))]
    | .block => [("base", Json.nat s.stackBase), ("introduced", Json.nats s.introduced)]
    | _ => [])

end ScopeTable

/-- The members of the document of a finished analysis. -/
def AnalysisResult.members (r : AnalysisResult) : List (String × Json) :=
  let defaults := r.fieldDefaults.toList.map fun (t, ids) =>
    r.types.format t ++ " [" ++ String.intercalate " " (ids.map toString) ++ "]"
  [("sweeps", .nat r.sweeps), ("globals", .nat r.scopes.globals),
   ("statics", .list (r.statics.map fun s => .nats [s.symbol, s.init])),
   ("defaults", .texts (defaults.mergeSort textLe)),
   ("nodes", .texts (r.tree.nodes.toList.zipIdx.map fun (n, i) => r.nodeLine (i + 1) n)),
   ("symbols", .list ((r.scopes.symbols.toList.zipIdx.drop 7).map fun (s, i) => r.symbolDocument (i + 1) s)),
   ("scopes", .list (r.scopes.scopes.toList.zipIdx.map fun (s, i) => r.scopes.scopeDocument (i + 1) s))]

/-! ### Builds -/

def BuildEvent.row (e : BuildEvent) : List Json :=
  [.text e.unit, .text ((e.stage.map (·.name)).getD ""), .text e.status.name]

def UnitResult.members (r : UnitResult) : List (String × Json) :=
  [("unit", Json.text r.unit), ("failed", Json.bool r.failed), ("cached", Json.bool r.cached),
   ("output", Json.text r.written), ("diags", Json.list (r.bag.items.map Diagnostic.row))] ++
    match r.digest with
    | some digest => [("digest", Json.text digest.toHex)]
    | none => []

end TreeCompiler
