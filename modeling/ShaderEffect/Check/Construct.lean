import ShaderEffect.Tree.Basic

/-!
# Constructs outside the shader subset

The constructs of the host language that a shader body cannot contain, and how to recognize them.
-/

namespace ShaderEffect

/-- A host construct that is never allowed in a shader body. -/
inductive Construct where
  | preprocessor
  | checkedBlock
  | uncheckedBlock
  | unsafeBlock
  | fixedBlock
  | lockBlock
  | tryBlock
  | throwing
  | usingBlock
  | goto
  | label
  | switchOn
  | forEachLoop
  | yielding
  | localFunction
  | thisReference
  | baseReference
  | nullReference
  | anonymousType
  | lambda
  | anonymousMethod
  | arrayCreation
  | arrayInitializer
  | objectInitializer
  | pointerMemberAccess
  | addressOf
  | dereference
  | sizeOfType
  | typeOfType
  | defaultValue
  | asType
  | isType
  | query
  | await
  | checkedExpression
  | uncheckedExpression
  | stackAllocation
  | interpolatedString
  | throwExpression
  | stringLiteral
  | nullCoalescing
  | namedArgument
  | referenceArgument
  deriving DecidableEq

namespace Construct

/-- The construct as named in messages. -/
def describe : Construct → String
  | preprocessor => "preprocessor directive"
  | checkedBlock => "checked"
  | uncheckedBlock => "unchecked"
  | unsafeBlock => "unsafe"
  | fixedBlock => "fixed"
  | lockBlock => "lock"
  | tryBlock => "try"
  | throwing => "throw"
  | usingBlock => "using"
  | goto => "goto"
  | label => "label"
  | switchOn => "switch"
  | forEachLoop => "foreach"
  | yielding => "yield"
  | localFunction => "local function"
  | thisReference => "this"
  | baseReference => "base"
  | nullReference => "null"
  | anonymousType => "anonymous type"
  | lambda => "lambda"
  | anonymousMethod => "anonymous method"
  | arrayCreation => "array creation"
  | arrayInitializer => "array initializer"
  | objectInitializer => "object initializer"
  | pointerMemberAccess => "pointer member access"
  | addressOf => "address-of"
  | dereference => "dereference"
  | sizeOfType => "sizeof"
  | typeOfType => "typeof"
  | defaultValue => "default"
  | asType => "as"
  | isType => "is"
  | query => "query expression"
  | await => "await"
  | checkedExpression => "checked expression"
  | uncheckedExpression => "unchecked expression"
  | stackAllocation => "stackalloc"
  | interpolatedString => "interpolated string"
  | throwExpression => "throw expression"
  | stringLiteral => "string literal"
  | nullCoalescing => "null-coalescing operator"
  | namedArgument => "named argument"
  | referenceArgument => "ref argument"

/-- The construct that a form of statement is. -/
def ofStmt? : StmtKind → Option Construct
  | .preprocessor _ => some preprocessor
  | .checkedBlock _ => some checkedBlock
  | .uncheckedBlock _ => some uncheckedBlock
  | .unsafeBlock _ => some unsafeBlock
  | .fixedBlock _ _ => some fixedBlock
  | .lockBlock _ _ => some lockBlock
  | .tryBlock _ _ _ => some tryBlock
  | .throwing _ => some throwing
  | .usingBlock _ _ => some usingBlock
  | .goto _ => some goto
  | .labeled _ _ => some label
  | .switchOn _ _ => some switchOn
  | .forEachLoop _ _ _ _ => some forEachLoop
  | .yielding _ => some yielding
  | .localFunction _ _ => some localFunction
  | _ => none

/-- The construct that a form of expression is, looking only at the node itself. -/
def ofExpr? : ExprKind → Option Construct
  | .thisReference => some thisReference
  | .baseReference => some baseReference
  | .nullReference => some nullReference
  | .anonymousObject _ => some anonymousType
  | .lambda _ _ => some lambda
  | .anonymousMethod _ _ => some anonymousMethod
  | .arrayCreation _ _ _ => some arrayCreation
  | .arrayInitializer _ => some arrayInitializer
  | .objectCreation _ _ (some _) => some objectInitializer
  | .pointerMemberAccess _ _ => some pointerMemberAccess
  | .addressOf _ => some addressOf
  | .dereference _ => some dereference
  | .sizeOfType _ => some sizeOfType
  | .typeOfType _ => some typeOfType
  | .defaultValue _ => some defaultValue
  | .asType _ _ => some asType
  | .isType _ _ => some isType
  | .query _ => some query
  | .await _ => some await
  | .checked _ => some checkedExpression
  | .unchecked _ => some uncheckedExpression
  | .stackAllocation _ _ => some stackAllocation
  | .interpolatedString _ => some interpolatedString
  | .throwing _ => some throwExpression
  | .literal (.string _) => some stringLiteral
  | .binary .nullCoalesce _ _ => some nullCoalescing
  | .assignment .nullCoalesce _ _ => some nullCoalescing
  | _ => none

/-- The construct that an argument is: its name counts before its mode. -/
def ofArgument? (argument : Argument) : Option Construct :=
  if argument.name.isSome then some namedArgument
  else if argument.mode ≠ .byValue then some referenceArgument
  else none

end Construct

end ShaderEffect
