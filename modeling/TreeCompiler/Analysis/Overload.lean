import TreeCompiler.Analysis.Function

/-!
# Choosing among overloads

* `Slot` : a child position of a node, where an expression can be exchanged for its cast;
* `Actual` : one argument after unpacking, with its slot unless it came out of an unpacked value;
* `classify` : how a list of arguments fits a list of parameters;
* `selectOverload` : the candidate of the first tier that has any. A tier with several is ambiguous. Generic candidates
  rank directly below the plain ones of the same class, and a variadic function is in the variadic class even when the
  count fits exactly;
* `reportSelection` : why no candidate was taken.
-/

namespace TreeCompiler

inductive Slot
  | a (owner : NodeId)
  | b (owner : NodeId)
  | item (owner : NodeId) (index : Nat)
deriving DecidableEq, Repr, Inhabited

structure Actual where
  slot : Option Slot
  type : TypeId
deriving DecidableEq, Repr, Inhabited

inductive MatchClass
  | best
  | cast
  | variadic
deriving DecidableEq, Repr, Inhabited

/-- The rank of a candidate; the lowest wins. -/
structure Tier where
  cls : MatchClass
  generic : Bool
deriving DecidableEq, Repr, Inhabited

namespace Tier

def all : List Tier :=
  [⟨.best, false⟩, ⟨.best, true⟩, ⟨.cast, false⟩, ⟨.cast, true⟩, ⟨.variadic, false⟩, ⟨.variadic, true⟩]

end Tier

inductive Rejection
  | arity
  | type
  | derivation
  | whereClause
  | access
deriving DecidableEq, Repr, Inhabited

/-- A function that takes the arguments, for a generic its instance, and the arguments that need a cast. -/
structure Candidate where
  fn : SymbolId
  casts : List Nat := []
deriving DecidableEq, Repr, Inhabited

inductive Selection
  | chosen (c : Candidate) (rejected : List (SymbolId × Rejection))
  | pending
  | ambiguous (cs : List Candidate)
  | nothing (rejected : List (SymbolId × Rejection))
deriving Repr, Inhabited

namespace TypeTable

/-- Positions that need a cast, none when an argument fits in no way. -/
def castPositions? (t : TypeTable) : List (TypeId × Actual) → Nat → Option (List Nat)
  | [], _ => some []
  | (p, act) :: rest, i =>
    if t.accepts p act.type then t.castPositions? rest (i + 1)
    else if act.slot.isSome && t.implicitCast act.type p then (t.castPositions? rest (i + 1)).map (i :: ·)
    else none

/-- `spread` tells that an unpacked argument has a length known only at run time. -/
def classify (t : TypeTable) (params : List TypeId) (variadic : Bool) (acts : List Actual) (spread : Bool) :
    Except Rejection (MatchClass × List Nat) :=
  if acts.length < params.length || (params.length < acts.length || spread) && !variadic then .error .arity
  else match t.castPositions? (params.zip acts) 0 with
    | none => .error .type
    | some casts => .ok (if variadic then .variadic else if casts.isEmpty then .best else .cast, casts)

end TypeTable

/-- The first tier with a member decides. -/
def firstTier (ranked : List (Tier × Candidate)) (rejected : List (SymbolId × Rejection)) : List Tier → Selection
  | [] => .nothing rejected
  | t :: rest =>
    match (ranked.filter (·.1 = t)).map (·.2) with
    | [] => firstTier ranked rejected rest
    | [c] => .chosen c rejected
    | cs => .ambiguous cs

namespace Analysis

def slotValue (s : Slot) : AnalysisM NodeId := do
  match s with
  | .a owner => return (← node owner).a
  | .b owner => return (← node owner).b
  | .item owner i => return (← node owner).list.getD i 0

def setSlot (s : Slot) (value : NodeId) : AnalysisM Unit :=
  match s with
  | .a owner => modifyNode owner fun n => { n with a := value }
  | .b owner => modifyNode owner fun n => { n with b := value }
  | .item owner i => modifyNode owner fun n => { n with list := n.list.set i value }

/-- Wraps the expression in a slot in an implicit cast. -/
def castSlot (s : Slot) (t : TypeId) : AnalysisM Unit := do setSlot s (← castNode (← slotValue s) t)

/-- Makes the expression in a slot acceptable as `want`. -/
def coerceSlot (s : Slot) (want : TypeId) (code : Code) : AnalysisM Unit := do
  setSlot s (← coerce (← slotValue s) want code).2

/-- Casts the arguments at the given positions to the types of the parameters there. -/
def castActuals (acts : List Actual) (params : List TypeId) (casts : List Nat) : AnalysisM Unit :=
  casts.forM fun i =>
    match acts[i]?.bind (·.slot), params[i]? with
    | some s, some t => castSlot s t
    | _, _ => throw .brokenReference

/-- A generic candidate with explicit or derived type arguments: its instance, or why it has none. -/
def instanceFor (rec : Resolver) (gen : SymbolId) (tpl : Template) (explicit : Option (List TypeId))
    (acts : List Actual) : AnalysisM (Except Rejection SymbolId) := do
  let args ← match explicit with
    | none => derive? rec gen (acts.map (·.type))
    | some args => pure (if args.length = tpl.params.length then some args else none)
  let some args := args | return .error .derivation
  let inst ← instantiate rec gen args
  if (← symbol inst).rejected then return .error .whereClause
  return .ok inst

/-- The state of a selection after some candidates. -/
structure Tally where
  ranked : List (Tier × Candidate) := []
  rejected : List (SymbolId × Rejection) := []
  pending : Bool := false
deriving Inhabited

namespace Tally

def reject (t : Tally) (fn : SymbolId) (r : Rejection) : Tally := { t with rejected := t.rejected ++ [(fn, r)] }

end Tally

/-- Weighs one candidate. Inaccessible ones are dropped first. -/
def weigh (rec : Resolver) (q : Query) (explicit : Option (List TypeId)) (acts : List Actual) (spread : Bool)
    (tally : Tally) (c : SymbolId) : AnalysisM Tally := do
  if !(← scopes).accessible q c then return tally.reject c .access
  let sym ← symbol c
  let fn ← match sym.template with
    | some tpl => instanceFor rec c tpl explicit acts
    | none => pure (if explicit.isSome then .error .derivation else .ok c)
  match fn with
  | .error r => return tally.reject c r
  | .ok fn =>
    if !(← paramTypes rec fn) then return { tally with pending := true }
    let info ← funcInfo fn
    match (← types).classify info.params info.variadic acts spread with
    | .error r => return tally.reject fn r
    | .ok (cls, casts) =>
      return { tally with ranked := tally.ranked ++ [(⟨cls, sym.isGeneric⟩, { fn, casts })] }

def selectOverload (rec : Resolver) (q : Query) (cands : List SymbolId) (explicit : Option (List TypeId))
    (acts : List Actual) (spread : Bool) : AnalysisM Selection := do
  let tally ← cands.foldlM (weigh rec q explicit acts spread) {}
  return if tally.pending then .pending else firstTier tally.ranked tally.rejected Tier.all

/-- The name of a function with its type once that is known. -/
def signatureText (fn : SymbolId) : AnalysisM String := do
  let name ← symbolName fn
  let t := (← symbol fn).type
  if ← isResolved t then return name ++ ": " ++ (← typeText t)
  return name

def candidateNotes (fns : List SymbolId) : AnalysisM (List Note) :=
  fns.mapM fun fn => do
    return { span := (← symbol fn).span, text := "candidate " ++ (← signatureText fn) }

/-- Rejections that agree are reported for what they have in common; the last case lists the candidates. -/
def reportRejected (span : Span) (name : String) (rejected : List (SymbolId × Rejection)) (acts : List Actual) :
    AnalysisM Unit := do
  let args ← typeTexts (acts.map (·.type))
  let every (r : Rejection) : Bool := !rejected.isEmpty && rejected.all (·.2 = r)
  if rejected.countP (·.2 = .whereClause) = 1 then report (.callRejected name args) span
  else if every .arity then report (.noOverloadArity name acts.length) span
  else if every .access then report (.inaccessible name) span
  else if every .derivation then report (.notDerivable name args) span
  else
    let shown := rejected.filter fun c => c.2 = .type || c.2 = .arity
    reportWith (.noOverload name args) span (← candidateNotes (shown.map (·.1)))

def reportSelection (id : NodeId) (name : String) (sel : Selection) (acts : List Actual) : AnalysisM Unit := do
  let span ← spanOf id
  match sel with
  | .ambiguous cs => reportWith (.ambiguousCall name) span (← candidateNotes (cs.map (·.fn)))
  | .chosen _ rejected | .nothing rejected => reportRejected span name rejected acts
  | .pending => reportRejected span name [] acts

end Analysis

end TreeCompiler
