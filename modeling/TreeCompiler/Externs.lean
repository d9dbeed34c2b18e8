import TreeCompiler.Text.Quoted
import TreeCompiler.Trace.Event

/-!
# Native entry points

`Registry` maps the symbols of libraries to native handles and remembers every request to load one. Handle 0 stands for
an unresolved entry and cannot be registered, and a registered symbol keeps its handle.
-/

namespace TreeCompiler

inductive LoadError
  | unknownLibrary (library : String)
  | unknownSymbol (symbol library : String)
deriving DecidableEq, Repr, Inhabited

namespace LoadError

def message : LoadError → String
  | unknownLibrary lib => "unknown library " ++ quote lib
  | unknownSymbol sym lib => "unknown symbol " ++ sym ++ " in " ++ quote lib

end LoadError

inductive RegisterError
  | zeroHandle (library symbol : String)
  | twice (library symbol : String) (first second : Nat)
deriving DecidableEq, Repr, Inhabited

namespace RegisterError

def message : RegisterError → String
  | zeroHandle lib sym => "extern " ++ lib ++ "." ++ sym ++ ": handle 0 is reserved"
  | twice lib sym a b =>
    "extern " ++ lib ++ "." ++ sym ++ ": registered twice (" ++ toString a ++ ", " ++ toString b ++ ")"

end RegisterError

structure LoadRequest where
  library : String
  symbol : String
  outcome : Except LoadError Nat
deriving Inhabited

structure Registry where
  libraries : List (String × List (String × Nat)) := []
  requests : List LoadRequest := []
deriving Inhabited

namespace Registry

def setPair {α : Type} (key : String) (value : α) : List (String × α) → List (String × α)
  | [] => [(key, value)]
  | (k, v) :: rest => if k == key then (key, value) :: rest else (k, v) :: setPair key value rest

/-- Registers a handle. A repeated registration must agree with the first; its library is known afterwards even when it
does not. -/
def add (r : Registry) (library symbol : String) (handle : Nat) : Except RegisterError Registry :=
  if handle = 0 then .error (.zeroHandle library symbol)
  else
    let syms := (r.libraries.lookup library).getD []
    match syms.lookup symbol with
    | some prev =>
      if prev = handle then .ok r else .error (.twice library symbol prev handle)
    | none => .ok { r with libraries := setPair library (setPair symbol handle syms) r.libraries }

def find (r : Registry) (library symbol : String) : Except LoadError Nat :=
  match r.libraries.lookup library with
  | none => .error (.unknownLibrary library)
  | some syms =>
    match syms.lookup symbol with
    | some h => .ok h
    | none => .error (.unknownSymbol symbol library)

def load (r : Registry) (library symbol : String) : Except LoadError Nat × Registry :=
  let outcome := r.find library symbol
  (outcome, { r with requests := r.requests ++ [{ library, symbol, outcome }] })

def libraryNames (r : Registry) : List String := (r.libraries.map (·.1)).mergeSort textLe

def size (r : Registry) : Nat := r.libraries.foldl (· + ·.2.length) 0

def ofTables (tables : List (String × List (String × Nat))) : Except RegisterError Registry :=
  tables.foldlM (fun r (lib, syms) => syms.foldlM (fun r (sym, h) => r.add lib sym h) r) {}

end Registry

end TreeCompiler
