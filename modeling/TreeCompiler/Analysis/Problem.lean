import TreeCompiler.Diagnostic.Code
import TreeCompiler.Text.Quoted

/-!
# What analysis finds

`Problem` lists the errors of a unit with what each is about; names, types and operators come as they are shown.
`Problem.code` files each under a code, `Problem.message` words it.
-/

namespace TreeCompiler

inductive Problem
  | loopControlOutside (what : String)
  | unknownLabel (what label : String)
  | redeclared (name : String)
  | returnOutside
  | nativeUnbound (name : String)
  | nativeNoLoader (symbol library : String)
  | nativeNotLoaded (symbol library reason : String)
  | notInferable (kind : String)
  | unknownImport (path : String)
  | conditionType (type : String)
  | cannotUse (code : Code) (got want : String)
  | missingReturnValue (want : String)
  | returnsNothing (function : String)
  | returnDisagrees (got want function : String)
  | notIterable (type : String)
  | unpackOutsideCall
  | unknownNamespaceIn (name : String)
  | noOperatorFunction (name : String)
  | unknownType (name : String)
  | unknownIdentifier (name : String)
  | ambiguousName (name : String)
  | inaccessible (name : String)
  | variantNeedsPayload (name : String)
  | typeAsValue (name : String)
  | notSingleGeneric (name : String)
  | ambiguousValue (name : String) (count : Nat)
  | genericAsValue (name : String)
  | typeArgCount (name : String) (want got : Nat)
  | instanceRejected (name args : String)
  | binaryUndefined (op left right : String)
  | unaryUndefined (op operand : String)
  | cannotAssignName (name : String)
  | assignConstant (name : String)
  | immutableString
  | cannotAssignExpr
  | compoundUndefined (op target value : String)
  | tupleIndex (type : String) (size : Nat)
  | cannotIndex (type : String)
  | noMember (type name : String)
  | notAStruct (type : String)
  | noField (type name : String)
  | fieldSetTwice (name : String)
  | cannotConvert (source target : String)
  | unpackTooMany (count : Int) (type : String)
  | cannotUnpack (type : String)
  | typeCalled (name : String)
  | valueArity (type : String) (want got : Nat)
  | cannotCall (type args : String)
  | notCallable (type : String)
  | variantArity (name : String) (want got : Nat)
  | payloadUnpacked
  | ambiguousCall (name : String)
  | callRejected (name args : String)
  | noOverloadArity (name : String) (count : Nat)
  | notDerivable (name args : String)
  | noOverload (name args : String)
  | expectedType (kind : String)
  | notAType (name : String)
  | typeNotGeneric (name : String)
  | typeParamCount (name : String) (want got : Nat)
  | fieldDeclaredTwice (name : String)
  | recursiveType (name : String)
  | cannotMatch (type : String)
  | duplicateDefault
  | noVariant (type name : String)
  | variantMatchedTwice (name : String)
  | noPayloadToBind (name : String)
  | unhandledVariants (type missing : String)
  | tryTooDeep (limit : Nat)
  | captureByFunction (function name : String)
  | captureTooFar (name : String)
deriving DecidableEq, Repr, Inhabited

namespace Problem

def code : Problem → Code
  | loopControlOutside _ | unknownLabel _ _ => .invalidLoopControl
  | redeclared _ | fieldSetTwice _ | fieldDeclaredTwice _ => .redefinition
  | returnOutside => .invalidReturn
  | nativeUnbound _ | nativeNoLoader _ _ | nativeNotLoaded _ _ _ => .nativeLoadFailed
  | notInferable _ => .inferenceUnavailable
  | unknownImport _ | unknownNamespaceIn _ => .unknownNamespace
  | conditionType _ => .conditionNotBool
  | cannotUse c _ _ => c
  | missingReturnValue _ | returnsNothing _ | returnDisagrees _ _ _ => .returnMismatch
  | notIterable _ => .notIterable
  | unpackOutsideCall | notAStruct _ | unpackTooMany _ _ | cannotUnpack _ | payloadUnpacked | cannotMatch _
  | noPayloadToBind _ => .typeMismatch
  | noOperatorFunction _ | binaryUndefined _ _ _ | unaryUndefined _ _ | compoundUndefined _ _ _ => .operatorUnsupported
  | unknownType _ => .unresolvedType
  | unknownIdentifier _ => .unknownIdentifier
  | ambiguousName _ => .ambiguousSymbol
  | inaccessible _ => .accessibility
  | variantNeedsPayload _ | typeAsValue _ => .notAValue
  | notSingleGeneric _ | typeArgCount _ _ _ | typeNotGeneric _ | typeParamCount _ _ _ => .templateArgMismatch
  | ambiguousValue _ _ | ambiguousCall _ => .ambiguousOverload
  | genericAsValue _ | notDerivable _ _ => .templateDerivation
  | instanceRejected _ _ | callRejected _ _ => .whereClauseRejected
  | cannotAssignName _ | immutableString | cannotAssignExpr => .assignMismatch
  | assignConstant _ => .assignToConst
  | tupleIndex _ _ | cannotIndex _ => .indexMismatch
  | noMember _ _ | noField _ _ | noVariant _ _ => .unknownMember
  | cannotConvert _ _ => .castMismatch
  | typeCalled _ | notCallable _ => .notCallable
  | valueArity _ _ _ | variantArity _ _ _ | noOverloadArity _ _ => .arity
  | cannotCall _ _ => .callMismatch
  | noOverload _ _ => .noOverload
  | expectedType _ | notAType _ => .notAType
  | recursiveType _ => .recursiveDeclaration
  | duplicateDefault | variantMatchedTwice _ => .duplicateMatchArm
  | unhandledVariants _ _ => .incompleteMatch
  | tryTooDeep _ => .tryDepthExceeded
  | captureByFunction _ _ | captureTooFar _ => .captureRule

def message : Problem → String
  | loopControlOutside what => what ++ " outside of a loop"
  | unknownLabel what label => what ++ " refers to unknown loop label " ++ quote label
  | redeclared name => quote name ++ " is already declared in this scope"
  | returnOutside => "return outside of a function"
  | nativeUnbound name => "extern function " ++ quote name ++ " has no native binding"
  | nativeNoLoader sym lib => "cannot load " ++ sym ++ " from " ++ quote lib ++ ": no extern loader configured"
  | nativeNotLoaded sym lib reason => "cannot load " ++ sym ++ " from " ++ quote lib ++ ": " ++ reason
  | notInferable kind => "cannot infer the type of this " ++ kind
  | unknownImport path => "unknown namespace " ++ path
  | conditionType type => "condition has type " ++ type ++ ", want bool"
  | cannotUse _ got want => "cannot use " ++ got ++ " as " ++ want
  | missingReturnValue want => "missing return value of type " ++ want
  | returnsNothing fn => "function " ++ fn ++ " does not return a value"
  | returnDisagrees got want fn => "return of " ++ got ++ " disagrees with the inferred result " ++ want ++ " of " ++ fn
  | notIterable type => "cannot iterate over " ++ type
  | unpackOutsideCall => "unpacking is only allowed in call arguments"
  | unknownNamespaceIn name => "unknown namespace in " ++ name
  | noOperatorFunction name => "no " ++ name ++ " is defined for these operands"
  | unknownType name => "unknown type " ++ name
  | unknownIdentifier name => "unknown identifier " ++ name
  | ambiguousName name => name ++ " is ambiguous"
  | inaccessible name => name ++ " is not accessible here"
  | variantNeedsPayload name => "variant " ++ name ++ " needs a payload"
  | typeAsValue name => name ++ " is a type, not a value"
  | notSingleGeneric name => name ++ " does not name a single generic function"
  | ambiguousValue name n => name ++ " names " ++ toString n ++ " overloads; the value is ambiguous"
  | genericAsValue name => "generic " ++ name ++ " needs explicit type arguments when used as a value"
  | typeArgCount name want got => name ++ " takes " ++ toString want ++ " type arguments, got " ++ toString got
  | instanceRejected name args => name ++ "<" ++ args ++ "> is rejected by its where clause"
  | binaryUndefined op l r => "operator " ++ op ++ " is not defined for " ++ l ++ " and " ++ r
  | unaryUndefined op x => "operator " ++ op ++ " is not defined for " ++ x
  | cannotAssignName name => "cannot assign to " ++ name
  | assignConstant name => "cannot assign to constant " ++ name
  | immutableString => "strings are immutable"
  | cannotAssignExpr => "cannot assign to this expression"
  | compoundUndefined op l r => "operator " ++ op ++ "= is not defined for " ++ l ++ " and " ++ r
  | tupleIndex type n => "tuple " ++ type ++ " needs a constant index below " ++ toString n
  | cannotIndex type => "cannot index " ++ type
  | noMember type name => type ++ " has no member " ++ quote name
  | notAStruct type => type ++ " is not a struct type"
  | noField type name => type ++ " has no field " ++ quote name
  | fieldSetTwice name => "field " ++ quote name ++ " is set twice"
  | cannotConvert source target => "cannot convert " ++ source ++ " to " ++ target
  | unpackTooMany n type => "cannot unpack " ++ toString n ++ " elements from " ++ type
  | cannotUnpack type => "cannot unpack " ++ type
  | typeCalled name => name ++ " is a type; convert with `as`"
  | valueArity type want got => type ++ " expects " ++ toString want ++ " arguments, got " ++ toString got
  | cannotCall type args => "cannot call " ++ type ++ " with (" ++ args ++ ")"
  | notCallable type => type ++ " is not callable"
  | variantArity name want got =>
    "variant " ++ name ++ " takes " ++ toString want ++ " payload values, got " ++ toString got
  | payloadUnpacked => "variant payloads cannot be unpacked"
  | ambiguousCall name => "call to " ++ name ++ " is ambiguous"
  | callRejected name args => name ++ " is rejected by its where clause for (" ++ args ++ ")"
  | noOverloadArity name n => "no overload of " ++ name ++ " takes " ++ toString n ++ " arguments"
  | notDerivable name args => "cannot derive the type arguments of " ++ name ++ " from (" ++ args ++ ")"
  | noOverload name args => "no overload of " ++ name ++ " matches (" ++ args ++ ")"
  | expectedType kind => "expected a type, found " ++ kind
  | notAType name => name ++ " is not a type"
  | typeNotGeneric name => "type " ++ name ++ " is not generic"
  | typeParamCount name want got =>
    "type " ++ name ++ " takes " ++ toString want ++ " type arguments, got " ++ toString got
  | fieldDeclaredTwice name => "field " ++ quote name ++ " is declared twice"
  | recursiveType name => "type " ++ name ++ " refers to itself"
  | cannotMatch type => "cannot match on " ++ type ++ ", want a union value"
  | duplicateDefault => "duplicate default arm"
  | noVariant type name => type ++ " has no variant " ++ name
  | variantMatchedTwice name => "variant " ++ name ++ " is matched twice"
  | noPayloadToBind name => "variant " ++ name ++ " has no payload to bind"
  | unhandledVariants type missing => "match on " ++ type ++ " does not handle " ++ missing
  | tryTooDeep n => "speculative resolution nested deeper than " ++ toString n ++ " levels"
  | captureByFunction fn name => "function " ++ fn ++ " cannot capture " ++ name ++ "; only function literals capture"
  | captureTooFar name =>
    name ++ " belongs to an outer function; a literal captures only from the function that directly encloses it"

end Problem

end TreeCompiler
