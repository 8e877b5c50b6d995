import ShaderEffect.Effect.Basic
import ShaderEffect.Intrinsic
import ShaderEffect.Shader.Error

/-!
# Shading languages

The two target languages and how each of them spells types, stage parameters, calls, products,
constructors and casts.
-/

namespace ShaderEffect

/-! ## Operands -/

/-- A written expression. -/
structure Operand where
  text : String
  /-- Whether the text needs parentheses to be used as an operand. -/
  compound : Bool := false

namespace Operand

/-- An expression that is never put in parentheses. -/
def atom (text : String) : Operand :=
  { text }

/-- An expression with an operator that may take part of its neighbours. -/
def ofOperator (text : String) : Operand :=
  { text, compound := true }

/-- The text as an operand, in parentheses if it needs them. -/
def wrapped (operand : Operand) : String :=
  if operand.compound then s!"({operand.text})" else operand.text

end Operand

/-! ## Languages -/

/-- A version of GLSL. -/
inductive GlslVersion where
  | v330
  | v410
  | v420
  | v450
  deriving DecidableEq

namespace GlslVersion

/-- All versions. -/
def all : List GlslVersion :=
  [v330, v410, v420, v450]

/-- The number in the version directive. -/
def number : GlslVersion → Nat
  | v330 => 330
  | v410 => 410
  | v420 => 420
  | v450 => 450

/-- The version with a number. -/
def ofNumber? (number : Nat) : Option GlslVersion :=
  all.find? (·.number == number)

/-- Whether the source can say which slot a texture or a buffer has. -/
def supportsBinding (version : GlslVersion) : Bool :=
  420 ≤ version.number

/-- The version as written in settings. -/
def tag : GlslVersion → String
  | v330 => "Glsl330"
  | v410 => "Glsl410"
  | v420 => "Glsl420"
  | v450 => "Glsl450"

end GlslVersion

/-- A target language. -/
inductive Dialect where
  | hlsl
  | glsl (version : GlslVersion)
  deriving DecidableEq

/-- The variable that holds the inputs of an HLSL entry point. -/
def hlslInputVariable : String := "fx_input"

/-- The variable that holds the outputs of an HLSL entry point. -/
def hlslOutputVariable : String := "fx_output"

/-- The HLSL sampler of a texture. -/
def hlslSamplerName (texture : String) : String :=
  s!"fx_sampler_{texture}"

/-- The HLSL structure that holds the parameters of a direction. -/
def hlslStructName (method : ShaderMethod) : Direction → String
  | .input => s!"fx_{method.name}_Input"
  | .output => s!"fx_{method.name}_Output"

/-- The semantic that an HLSL parameter is bound to. Outputs of fragment shaders are render targets
in declaration order, and positions between the stages are a system value. -/
def hlslSemantic (method : ShaderMethod) (parameter : ShaderParameter) : String :=
  match method.stage, parameter.direction with
  | .fragment, .output =>
    s!"SV_Target{(method.outputs.findIdx? (·.name == parameter.name)).getD 0}"
  | .vertex, .output | .fragment, .input =>
    if parameter.semantics = .position then "SV_Position" else parameter.semantics.hlslName
  | .vertex, .input => parameter.semantics.hlslName

/-- The GLSL global that a stage parameter is bound to. Positions between the stages are built-in
variables, and have none. -/
def glslVariable? (stage : Stage) (parameter : ShaderParameter) : Option String :=
  let name := parameter.semantics.glslName
  match stage, parameter.direction with
  | .vertex, .input => some s!"a_{name}"
  | .fragment, .output => some s!"o_{name}"
  | _, _ => if parameter.semantics = .position then none else some s!"v_{name}"

/-- The built-in GLSL variable that holds the position. -/
def glslPosition : Stage → String
  | .vertex => "gl_Position"
  | .fragment => "gl_FragCoord"

/-- Texts with commas between them. -/
def commaSeparated (texts : List String) : String :=
  ", ".intercalate texts

namespace Dialect

/-- The name of a type. -/
def typeName : Dialect → DataType → Except CompileError String
  | _, .unknown => throw (.unknownType .unknown)
  | _, .bool => return "bool"
  | _, .int => return "int"
  | _, .float => return "float"
  | hlsl, .vector2 => return "float2"
  | hlsl, .vector3 => return "float3"
  | hlsl, .vector4 => return "float4"
  | hlsl, .matrix => return "float4x4"
  | hlsl, .texture2D => return "Texture2D"
  | hlsl, .textureCube => return "TextureCube"
  | glsl _, .vector2 => return "vec2"
  | glsl _, .vector3 => return "vec3"
  | glsl _, .vector4 => return "vec4"
  | glsl _, .matrix => return "mat4"
  | glsl _, .texture2D => return "sampler2D"
  | glsl _, .textureCube => return "samplerCube"

/-- A reference to a stage parameter. -/
def parameter (dialect : Dialect) (method : ShaderMethod) (declared : ShaderParameter) : String :=
  match dialect with
  | hlsl =>
    match declared.direction with
    | .input => s!"{hlslInputVariable}.{declared.name}"
    | .output => s!"{hlslOutputVariable}.{declared.name}"
  | glsl _ => (glslVariable? method.stage declared).getD (glslPosition method.stage)

/-- The name of an intrinsic function. -/
def intrinsicName : Dialect → Intrinsic → String
  | hlsl, intrinsic => intrinsic.hlslName
  | glsl _, intrinsic => intrinsic.glslName

/-- A sample of a texture. Vertex shaders have no derivatives and read the first level. -/
def sample (dialect : Dialect) (stage : Stage) (texture coordinates : String) : String :=
  match dialect, stage with
  | hlsl, .vertex => s!"{texture}.SampleLevel({hlslSamplerName texture}, {coordinates}, 0)"
  | hlsl, .fragment => s!"{texture}.Sample({hlslSamplerName texture}, {coordinates})"
  | glsl _, .vertex => s!"textureLod({texture}, {coordinates}, 0.0)"
  | glsl _, .fragment => s!"texture({texture}, {coordinates})"

/-- A call of an intrinsic from a shader of a stage. The receiver is the first of the operands. A
sample has two operands; in GLSL it may have more. -/
def intrinsicCall (dialect : Dialect) (stage : Stage) (intrinsic : Intrinsic)
    (operands : List Operand) : Except CompileError String :=
  let texts := operands.map (·.text)
  let plain := s!"{dialect.intrinsicName intrinsic}({commaSeparated texts})"
  let unresolved := CompileError.unresolvedInvocation (dialect.intrinsicName intrinsic)
  match intrinsic with
  | .unknown => throw unresolved
  | .sampleTexture =>
    match dialect, texts with
    | _, [texture, coordinates] => return dialect.sample stage texture coordinates
    | glsl _, _ :: _ :: _ => return plain
    | _, _ => throw unresolved
  | .saturate =>
    match dialect, texts with
    | glsl _, [value] => return s!"clamp({value}, 0.0, 1.0)"
    | _, _ => return plain
  | intrinsic =>
    if intrinsic.isFragmentOnly && stage = .vertex then throw (.unwritable .vertexDerivative)
    else return plain

/-- A product with a matrix. GLSL matrices are column major, so that the operands of a product with
a row vector are swapped. -/
def product (dialect : Dialect) (lhs rhs : Operand) : Operand :=
  match dialect with
  | hlsl => .atom s!"mul({lhs.text}, {rhs.text})"
  | glsl _ => .ofOperator s!"{rhs.wrapped} * {lhs.wrapped}"

/-- A remainder of floating point operands. -/
def remainder (dialect : Dialect) (lhs rhs : Operand) : Operand :=
  match dialect with
  | hlsl => .ofOperator s!"{lhs.wrapped} % {rhs.wrapped}"
  | glsl _ => .atom s!"mod({lhs.text}, {rhs.text})"

/-- The construction of a vector or a matrix. No argument stands for zeros, and one argument of a
vector for all its components. -/
def construction (dialect : Dialect) (type : DataType) (arguments : List String) :
    Except CompileError String := do
  let name ← dialect.typeName type
  match dialect, arguments with
  | hlsl, [] => return s!"(({name})0)"
  | glsl _, [] => return s!"{name}(0.0)"
  | hlsl, [value] => return if type.isVector then s!"(({name})({value}))" else s!"{name}({value})"
  | _, arguments => return s!"{name}({commaSeparated arguments})"

/-- A conversion to a type. -/
def cast (dialect : Dialect) (type : DataType) (operand : Operand) :
    Except CompileError String := do
  let name ← dialect.typeName type
  match dialect with
  | hlsl => return s!"(({name}){operand.wrapped})"
  | glsl _ => return s!"{name}({operand.text})"

/-- The statement that leaves the entry point. -/
def returnStatement : Dialect → String
  | hlsl => s!"return {hlslOutputVariable};"
  | glsl _ => "return;"

end Dialect

end ShaderEffect
