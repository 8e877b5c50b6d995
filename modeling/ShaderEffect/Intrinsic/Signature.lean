import ShaderEffect.Intrinsic
import ShaderEffect.Tree.Basic

/-!
# Signatures of intrinsics

The host methods that stand for intrinsics, and how an invoked method is found among them.
-/

namespace ShaderEffect

/-- An overload of a host method that stands for an intrinsic. -/
structure Signature where
  declaringType : String
  name : String
  isStatic : Bool
  parameters : List DataType
  intrinsic : Intrinsic
  deriving DecidableEq

namespace Signature

/-- Every overload. -/
def all : List Signature :=
  [
    ⟨"Texture2D", "Sample", false, [.vector2], .sampleTexture⟩,
    ⟨"TextureCube", "Sample", false, [.vector3], .sampleTexture⟩,
    ⟨"MathF", "Abs", true, [.float], .abs⟩,
    ⟨"MathF", "Sin", true, [.float], .sin⟩,
    ⟨"MathF", "Cos", true, [.float], .cos⟩,
    ⟨"MathF", "Tan", true, [.float], .tan⟩,
    ⟨"MathF", "Asin", true, [.float], .asin⟩,
    ⟨"MathF", "Acos", true, [.float], .acos⟩,
    ⟨"MathF", "Atan", true, [.float], .atan⟩,
    ⟨"MathF", "Sqrt", true, [.float], .sqrt⟩,
    ⟨"MathF", "Exp", true, [.float], .exp⟩,
    ⟨"MathF", "Log", true, [.float], .log⟩,
    ⟨"MathF", "Floor", true, [.float], .floor⟩,
    ⟨"MathF", "Ceiling", true, [.float], .ceiling⟩,
    ⟨"MathF", "Atan2", true, [.float, .float], .atan2⟩,
    ⟨"MathF", "Pow", true, [.float, .float], .pow⟩,
    ⟨"MathF", "Min", true, [.float, .float], .min⟩,
    ⟨"MathF", "Max", true, [.float, .float], .max⟩,
    ⟨"MathF", "Clamp", true, [.float, .float, .float], .clamp⟩,
    ⟨"ShaderMath", "Rsqrt", true, [.float], .inverseSqrt⟩,
    ⟨"ShaderMath", "Frac", true, [.float], .frac⟩,
    ⟨"ShaderMath", "Saturate", true, [.float], .saturate⟩,
    ⟨"ShaderMath", "Ddx", true, [.float], .ddx⟩,
    ⟨"ShaderMath", "Ddy", true, [.float], .ddy⟩,
    ⟨"ShaderMath", "Step", true, [.float, .float], .step⟩,
    ⟨"ShaderMath", "Lerp", true, [.float, .float, .float], .lerp⟩,
    ⟨"ShaderMath", "SmoothStep", true, [.float, .float, .float], .smoothStep⟩,
    ⟨"Vector2", "Dot", true, [.vector2, .vector2], .dot⟩,
    ⟨"Vector2", "Distance", true, [.vector2, .vector2], .distance⟩,
    ⟨"Vector2", "Min", true, [.vector2, .vector2], .min⟩,
    ⟨"Vector2", "Max", true, [.vector2, .vector2], .max⟩,
    ⟨"Vector2", "Reflect", true, [.vector2, .vector2], .reflect⟩,
    ⟨"Vector2", "Normalize", true, [.vector2], .normalize⟩,
    ⟨"Vector2", "Lerp", true, [.vector2, .vector2, .float], .lerp⟩,
    ⟨"Vector2", "Clamp", true, [.vector2, .vector2, .vector2], .clamp⟩,
    ⟨"Vector2", "Length", false, [], .length⟩,
    ⟨"Vector3", "Dot", true, [.vector3, .vector3], .dot⟩,
    ⟨"Vector3", "Distance", true, [.vector3, .vector3], .distance⟩,
    ⟨"Vector3", "Min", true, [.vector3, .vector3], .min⟩,
    ⟨"Vector3", "Max", true, [.vector3, .vector3], .max⟩,
    ⟨"Vector3", "Reflect", true, [.vector3, .vector3], .reflect⟩,
    ⟨"Vector3", "Cross", true, [.vector3, .vector3], .cross⟩,
    ⟨"Vector3", "Normalize", true, [.vector3], .normalize⟩,
    ⟨"Vector3", "Lerp", true, [.vector3, .vector3, .float], .lerp⟩,
    ⟨"Vector3", "Clamp", true, [.vector3, .vector3, .vector3], .clamp⟩,
    ⟨"Vector3", "Length", false, [], .length⟩,
    ⟨"Vector4", "Dot", true, [.vector4, .vector4], .dot⟩,
    ⟨"Vector4", "Distance", true, [.vector4, .vector4], .distance⟩,
    ⟨"Vector4", "Min", true, [.vector4, .vector4], .min⟩,
    ⟨"Vector4", "Max", true, [.vector4, .vector4], .max⟩,
    ⟨"Vector4", "Normalize", true, [.vector4], .normalize⟩,
    ⟨"Vector4", "Lerp", true, [.vector4, .vector4, .float], .lerp⟩,
    ⟨"Vector4", "Clamp", true, [.vector4, .vector4, .vector4], .clamp⟩,
    ⟨"Vector4", "Length", false, [], .length⟩,
    ⟨"Matrix", "Transpose", true, [.matrix], .transpose⟩
  ]

end Signature

/-- The canonical form of a host type name: unqualified, and with one spelling per shader type. -/
def canonicalTypeName (name : String) : String :=
  match DataType.ofHostName name with
  | .unknown => unqualified name
  | type => type.hostName

/-- Whether a name denotes a type with members that shaders can use. -/
def isKnownType (name : String) : Bool :=
  Signature.all.any (·.declaringType == canonicalTypeName name)

/-- Whether a parameter accepts a type: its own, and an integer where a float is expected. -/
def DataType.accepts (parameter given : DataType) : Bool :=
  parameter == given || (parameter == .float && given == .int)

namespace MethodRef

/-- The shader types of the parameters. -/
def parameterDataTypes (method : MethodRef) : List DataType :=
  method.parameterTypes.map DataType.ofHostName

/-- Whether a signature has the declaring type, the name, the arity and the kind of the method. -/
def isCandidate (method : MethodRef) (signature : Signature) : Bool :=
  signature.declaringType == canonicalTypeName method.declaringType &&
    signature.name == method.name &&
    signature.parameters.length == method.parameterTypes.length &&
    signature.isStatic == method.isStatic

/-- Whether a candidate signature has exactly the parameter types of the method. -/
def matchesExactly (method : MethodRef) (signature : Signature) : Bool :=
  method.isCandidate signature && signature.parameters == method.parameterDataTypes

/-- Whether every parameter of a candidate signature accepts the parameter type of the method. -/
def matchesWidened (method : MethodRef) (signature : Signature) : Bool :=
  method.isCandidate signature &&
    (signature.parameters.zip method.parameterDataTypes).all fun (parameter, given) =>
      parameter.accepts given

/-- The intrinsic that the method stands for in a table of signatures. An exact match wins over one
that widens integers to floats. -/
def intrinsicIn (method : MethodRef) (table : List Signature) : Intrinsic :=
  match table.find? method.matchesExactly with
  | some signature => signature.intrinsic
  | none =>
    match table.find? method.matchesWidened with
    | some signature => signature.intrinsic
    | none => .unknown

/-- The intrinsic that the method stands for. -/
def intrinsic (method : MethodRef) : Intrinsic :=
  method.intrinsicIn Signature.all

end MethodRef

end ShaderEffect
