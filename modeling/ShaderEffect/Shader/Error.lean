import ShaderEffect.Check.Construct
import ShaderEffect.DataType

/-!
# Compile errors

Why a shader method cannot be written in a target language.
-/

namespace ShaderEffect

/-- A part of a shader body that no target language can express. -/
inductive Unwritable where
  | construct (unsupported : Construct)
  | staticMember
  | memberAccess
  | invocation
  | textureReceiver
  | vertexDerivative
  | expression
  | loopInitializer
  | returnValue
  | statement
  deriving DecidableEq

/-- The part as named in messages. -/
def Unwritable.describe : Unwritable → String
  | .construct unsupported => unsupported.describe
  | staticMember => "static member"
  | memberAccess => "member access"
  | invocation => "invocation"
  | textureReceiver => "texture receiver"
  | vertexDerivative => "derivative in a vertex shader"
  | expression => "expression"
  | loopInitializer => "for initializer"
  | returnValue => "return value"
  | statement => "statement"

/-- Why a shader method cannot be compiled. -/
inductive CompileError where
  | unwritable (part : Unwritable)
  /-- A call is not of an intrinsic of the target language. -/
  | unresolvedInvocation (method : String)
  /-- A type has no counterpart in shaders. -/
  | unknownType (type : DataType)
  | unknownIdentifier (name : String)
  | unknownMethod (name : String)
  deriving DecidableEq

/-- The wording of a compile error. -/
def CompileError.message : CompileError → String
  | unwritable part => s!"unsupported construct '{part.describe}' reached the backend"
  | unresolvedInvocation method =>
    s!"invocation of '{method}' does not resolve to an intrinsic"
  | unknownType type => s!"type '{type.hostName}' has no shader representation"
  | unknownIdentifier name => s!"identifier '{name}' does not resolve"
  | unknownMethod name => s!"effect has no shader method '{name}'"

end ShaderEffect
