import ShaderEffect.Check.Construct
import ShaderEffect.Diagnostic
import ShaderEffect.Effect.Basic
import ShaderEffect.Name
import ShaderEffect.Tree.Declaration

/-!
# Violations

The rules that an effect can break, and remarks on declarations that have no effect.
-/

namespace ShaderEffect

/-- A rule that an effect breaks. -/
inductive Violation where
  | bothMarks (effect : String)
  | effectModifiers (effect : String)
  | genericEffect (effect : String)
  | baseType (effect : String) (base : TypeRef)
  | memberKind (effect : String) (kind : MemberKind) (name : String)
  | reservedName (name : String)
  | parameterShadowsMember (parameter method : String)
  | reservedBuffer (name : String)
  | bufferIdentifier (name : String)
  | bufferCollision (name : String)
  | constantCollision (name : String)
  | literalType (name type : String)
  | literalString (name : String)
  | literalNotConstant (name : String)
  | returnType (method : String)
  | genericMethod (method : String)
  | passMode (parameter method mode : String)
  | missingPosition (method : String)
  | positionType (output method : String)
  | missingColor (method : String)
  | outputSemantics (method output : String) (semantics : Semantics)
  | repeatedSemantics (semantics : Semantics) (direction : Direction) (method : String)
  | unsupported (construct : Construct)
  | returnValue (method : String)
  | localType (name type : String)
  | localShadowsMember (name : String)
  | localShadowsParameter (name : String)
  | inaccessible (name method : String)
  | castType (type : TypeRef)
  | staticMember (receiver member : String)
  | arrayMember (member literal : String)
  | unknownMember (member : String) (type : DataType)
  | negativeIndex (index : Int64)
  | arrayIndex (index : Int64) (literal : String) (length : Nat)
  | componentIndex (index : Int64) (type : DataType) (bound : Nat)
  | unknownMethod (name : String)
  | sampleReceiver (method : String)
  | fragmentOnly (called method : String)
  | construction (type : TypeRef)
  | componentCount (type : DataType) (expected found : Nat)
  | assignedConstant (name : String)
  | assignedLiteral (name : String)
  | assignedTexture (name : String)
  | assignedInput (name method : String)

/-- The wording of a violation. -/
def Violation.message : Violation → String
  | bothMarks effect =>
    s!"effect '{effect}' must either derive from Effect or carry the [Effect] attribute, not both"
  | effectModifiers effect =>
    s!"effect '{effect}' must be declared with only the public modifier"
  | genericEffect effect => s!"effect '{effect}' cannot be generic"
  | baseType effect base => s!"effect '{effect}' cannot inherit from '{base.describe}'"
  | memberKind effect kind name => s!"effect '{effect}' cannot declare {kind.describe} '{name}'"
  | reservedName name => s!"identifier '{name}' uses the reserved prefix {reservedStart}"
  | parameterShadowsMember parameter method =>
    s!"parameter '{parameter}' of '{method}' shadows effect member '{parameter}'"
  | reservedBuffer name => s!"constant buffer name '{name}' is reserved"
  | bufferIdentifier name => s!"constant buffer name '{name}' is not a valid identifier"
  | bufferCollision name =>
    s!"constant buffer name '{name}' collides with effect member '{name}'"
  | constantCollision name => s!"constant '{name}' collides with a system constant"
  | literalType name type => s!"literal '{name}' has unsupported type '{type}'"
  | literalString name => s!"literal '{name}' cannot be a string"
  | literalNotConstant name =>
    s!"initializer of literal '{name}' is not a compile-time constant"
  | returnType method => s!"shader method '{method}' must return void"
  | genericMethod method => s!"shader method '{method}' cannot be generic"
  | passMode parameter method mode =>
    s!"parameter '{parameter}' of '{method}' cannot be declared {mode}"
  | missingPosition method => s!"vertex shader '{method}' must output a Position"
  | positionType output method =>
    s!"position output '{output}' of vertex shader '{method}' must be a Vector4"
  | missingColor method => s!"fragment shader '{method}' must output at least one color"
  | outputSemantics method output semantics =>
    s!"fragment shader '{method}' output '{output}' uses non-color semantics {semantics.tag}"
  | repeatedSemantics semantics direction method =>
    s!"semantics {semantics.tag} is used by more than one {direction.describe} of '{method}'"
  | unsupported construct => s!"unsupported feature: {construct.describe}"
  | returnValue method => s!"shader method '{method}' cannot return a value"
  | localType name type => s!"local variable '{name}' has unsupported type '{type}'"
  | localShadowsMember name => s!"local variable '{name}' shadows effect member '{name}'"
  | localShadowsParameter name => s!"local variable '{name}' shadows parameter '{name}'"
  | inaccessible name method => s!"'{name}' is not accessible from shader method '{method}'"
  | castType type => s!"cast to '{type.describe}' is not supported"
  | staticMember receiver member =>
    s!"static member '{receiver}.{member}' is not supported in shaders"
  | arrayMember member literal =>
    s!"'{member}' is not a member of array literal '{literal}' usable in shaders"
  | unknownMember member type =>
    s!"'{member}' is not a member of {type.hostName} usable in shaders"
  | negativeIndex index => s!"negative index {index.toInt}"
  | arrayIndex index literal length =>
    s!"index {index.toInt} is out of range for {literal} with {length} elements"
  | componentIndex index type bound =>
    s!"index {index.toInt} is out of range for {type.hostName} with {bound} components"
  | unknownMethod name => s!"invocation of unsupported method '{name}'"
  | sampleReceiver method => s!"'{method}' can only be called on a texture of the effect"
  | fragmentOnly called method =>
    s!"'{called}' is only available in fragment shaders, '{method}' is a vertex shader"
  | construction type => s!"construction of '{type.describe}' is not supported in shaders"
  | componentCount type expected found =>
    s!"constructor of {type.hostName} expects {expected} components, found {found}"
  | assignedConstant name => s!"cannot assign to shader constant '{name}'"
  | assignedLiteral name => s!"cannot assign to shader literal '{name}'"
  | assignedTexture name => s!"cannot assign to texture '{name}'"
  | assignedInput name method => s!"cannot assign to input parameter '{name}' of '{method}'"

/-- A declaration that is accepted but has no effect. -/
inductive Remark where
  | ignoredInitializer (constant : String)
  | unusedMethod (method : String)

/-- The wording of a remark. -/
def Remark.message : Remark → String
  | ignoredInitializer constant =>
    s!"initializer of constant '{constant}' is ignored, " ++
      "constant values are supplied at runtime"
  | unusedMethod method => s!"shader method '{method}' is not used by any technique"

/-- A violation at a position. -/
abbrev Finding := Located Violation

/-- A violation as an error in the source. -/
def Finding.toDiagnostic (finding : Finding) : Diagnostic :=
  { severity := .error, location := finding.location, message := finding.value.message }

/-- A remark as a warning. -/
def Remark.toDiagnostic (remark : Located Remark) : Diagnostic :=
  { severity := .warning, location := remark.location, message := remark.value.message }

end ShaderEffect
