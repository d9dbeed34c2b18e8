/-!
# Severities and codes of diagnostics

`Severity` orders findings by weight, and errors and anything above them block code generation. `Code` names the kind
of a finding; `number`, `id` and `title` are its three outward forms, and `ofNumber` reads the first back.
-/

namespace TreeCompiler

inductive Severity
  | info
  | warning
  | error
  | other (rank : Nat)
deriving DecidableEq, Repr, Inhabited

namespace Severity

def rank : Severity → Nat
  | info => 0
  | warning => 1
  | error => 2
  | other n => n

def ofRank : Nat → Severity
  | 0 => info
  | 1 => warning
  | 2 => error
  | n => other n

def name : Severity → String
  | info => "INFO"
  | warning => "WARNING"
  | error => "ERROR"
  | other _ => "UNKNOWN"

def blocks (s : Severity) : Bool := 2 ≤ s.rank

end Severity

inductive Code
  | unknown
  | info
  | redefinition
  | unknownIdentifier
  | ambiguousSymbol
  | accessibility
  | unknownNamespace
  | unknownMember
  | nativeLoadFailed
  | assignToConst
  | invalidReturn
  | invalidLoopControl
  | captureRule
  | incompleteMatch
  | duplicateMatchArm
  | unresolvedType
  | notAType
  | notAValue
  | recursiveDeclaration
  | typeMismatch
  | assignMismatch
  | castMismatch
  | callMismatch
  | indexMismatch
  | ambiguousOverload
  | noOverload
  | arity
  | templateArgMismatch
  | whereClauseRejected
  | notCallable
  | returnMismatch
  | conditionNotBool
  | notIterable
  | templateDerivation
  | operatorUnsupported
  | tryDepthExceeded
  | inferenceUnavailable
  | other (number : Nat)
deriving DecidableEq, Repr, Inhabited

namespace Code

/-- The numbered codes with their titles; `info` shares the title of `unknown`. -/
def table : List (Code × Nat × String) :=
  [(unknown, 0, "Unknown error"),
   (info, 3000, "Unknown error"),
   (redefinition, 3001, "Redefinition"),
   (unknownIdentifier, 3002, "Unknown identifier"),
   (ambiguousSymbol, 3003, "Ambiguous symbol"),
   (accessibility, 3004, "Inaccessible symbol"),
   (unknownNamespace, 3005, "Unknown namespace"),
   (unknownMember, 3006, "Unknown member"),
   (nativeLoadFailed, 3007, "Extern load failed"),
   (assignToConst, 3008, "Assignment to constant"),
   (invalidReturn, 3009, "Invalid return placement"),
   (invalidLoopControl, 3010, "Invalid loop control"),
   (captureRule, 3011, "Capture rule violation"),
   (incompleteMatch, 3012, "Incomplete pattern match"),
   (duplicateMatchArm, 3013, "Duplicate match arm"),
   (unresolvedType, 3014, "Unresolved type"),
   (notAType, 3015, "Not a type"),
   (notAValue, 3016, "Not a value"),
   (recursiveDeclaration, 3017, "Recursive declaration"),
   (typeMismatch, 3100, "Type mismatch"),
   (assignMismatch, 3101, "Assignment type mismatch"),
   (castMismatch, 3102, "Invalid cast"),
   (callMismatch, 3103, "Call argument mismatch"),
   (indexMismatch, 3104, "Index type mismatch"),
   (ambiguousOverload, 3105, "Ambiguous overload"),
   (noOverload, 3106, "No matching overload"),
   (arity, 3107, "Wrong argument count"),
   (templateArgMismatch, 3108, "Template argument mismatch"),
   (whereClauseRejected, 3109, "Where clause rejected"),
   (notCallable, 3110, "Not callable"),
   (returnMismatch, 3111, "Return type mismatch"),
   (conditionNotBool, 3112, "Condition is not bool"),
   (notIterable, 3113, "Not iterable"),
   (templateDerivation, 3114, "Template arguments not derivable"),
   (operatorUnsupported, 3115, "Unsupported operator"),
   (tryDepthExceeded, 3116, "Speculation depth exceeded"),
   (inferenceUnavailable, 3117, "Type not inferable")]

def ofNumber (n : Nat) : Code :=
  match table.find? (fun row => row.2.1 == n) with
  | some row => row.1
  | none => other n

def number : Code → Nat
  | other n => n
  | c => match table.find? (fun row => row.1 == c) with
    | some row => row.2.1
    | none => 0

/-- The number padded with zeros to four digits. -/
def digits (n : Nat) : String :=
  let s := toString n
  String.ofList (List.replicate (4 - s.length) '0') ++ s

/-- `S` and the number for the codes of analysis, `E` and the number for the rest. -/
def id : Code → String
  | unknown => "E0000"
  | other n => "E" ++ digits n
  | c => "S" ++ digits c.number

def title (c : Code) : String :=
  match table.find? (fun row => row.1 == c) with
  | some row => row.2.2
  | none => "Unknown error"

def render (c : Code) : String := "[" ++ c.id ++ "]: " ++ c.title

end Code

end TreeCompiler
