import ShaderEffect.DataType

/-!
# Intrinsics

The functions that are built into both shading languages.
-/

namespace ShaderEffect

/-- A shader function that a host method call can stand for. -/
inductive Intrinsic where
  /-- The call has no shader equivalent. -/
  | unknown
  | sampleTexture
  | abs
  | sin
  | cos
  | tan
  | asin
  | acos
  | atan
  | atan2
  | sqrt
  | inverseSqrt
  | exp
  | log
  | pow
  | floor
  | ceiling
  | frac
  | min
  | max
  | clamp
  | saturate
  | step
  | lerp
  | smoothStep
  | ddx
  | ddy
  | dot
  | cross
  | distance
  | length
  | normalize
  | reflect
  | transpose
  deriving DecidableEq

namespace Intrinsic

/-- The HLSL function. -/
def hlslName : Intrinsic → String
  | unknown => "<unknown>"
  | sampleTexture => "Sample"
  | abs => "abs"
  | sin => "sin"
  | cos => "cos"
  | tan => "tan"
  | asin => "asin"
  | acos => "acos"
  | atan => "atan"
  | atan2 => "atan2"
  | sqrt => "sqrt"
  | inverseSqrt => "rsqrt"
  | exp => "exp"
  | log => "log"
  | pow => "pow"
  | floor => "floor"
  | ceiling => "ceil"
  | frac => "frac"
  | min => "min"
  | max => "max"
  | clamp => "clamp"
  | saturate => "saturate"
  | step => "step"
  | lerp => "lerp"
  | smoothStep => "smoothstep"
  | ddx => "ddx"
  | ddy => "ddy"
  | dot => "dot"
  | cross => "cross"
  | distance => "distance"
  | length => "length"
  | normalize => "normalize"
  | reflect => "reflect"
  | transpose => "transpose"

/-- The GLSL function. Saturation has none and is written as a clamp. -/
def glslName : Intrinsic → String
  | sampleTexture => "texture"
  | atan2 => "atan"
  | inverseSqrt => "inversesqrt"
  | frac => "fract"
  | lerp => "mix"
  | saturate => "clamp"
  | ddx => "dFdx"
  | ddy => "dFdy"
  | other => other.hlslName

/-- The name of the intrinsic in the interchange format. -/
def tag : Intrinsic → String
  | unknown => "Unknown"
  | sampleTexture => "SampleTexture"
  | abs => "Abs"
  | sin => "Sin"
  | cos => "Cos"
  | tan => "Tan"
  | asin => "Asin"
  | acos => "Acos"
  | atan => "Atan"
  | atan2 => "Atan2"
  | sqrt => "Sqrt"
  | inverseSqrt => "InverseSqrt"
  | exp => "Exp"
  | log => "Log"
  | pow => "Pow"
  | floor => "Floor"
  | ceiling => "Ceiling"
  | frac => "Frac"
  | min => "Min"
  | max => "Max"
  | clamp => "Clamp"
  | saturate => "Saturate"
  | step => "Step"
  | lerp => "Lerp"
  | smoothStep => "SmoothStep"
  | ddx => "Ddx"
  | ddy => "Ddy"
  | dot => "Dot"
  | cross => "Cross"
  | distance => "Distance"
  | length => "Length"
  | normalize => "Normalize"
  | reflect => "Reflect"
  | transpose => "Transpose"

/-- Screen-space derivatives exist in fragment shaders only. -/
def isFragmentOnly : Intrinsic → Bool
  | ddx | ddy => true
  | _ => false

/-- The type of the result for the types of the operands, the receiver of an instance method
first. -/
def returnType (intrinsic : Intrinsic) (operands : List DataType) : DataType :=
  match intrinsic with
  | unknown => .unknown
  | sampleTexture => .vector4
  | dot | distance | length => .float
  | cross => .vector3
  | transpose => .matrix
  | _ =>
    match operands with
    | [] => .unknown
    | .int :: _ => .float
    | type :: _ => type

end Intrinsic

end ShaderEffect
