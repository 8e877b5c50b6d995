import ShaderEffect.Effect.Layout
import ShaderEffect.Semantics
import ShaderEffect.Stage
import ShaderEffect.Tree.Basic

/-!
# Effects

An effect as the shader compiler sees it: the constants that the application supplies, the literals
and textures, the shader methods and the techniques that pair them.
-/

namespace ShaderEffect

/-- A value that the application supplies at run time. -/
structure ShaderConstant where
  name : String
  type : DataType
  documentation : List String := []
  location : Location := {}

/-- A named group of constants at a slot. -/
structure ConstantBuffer where
  name : String
  slot : UInt32
  /-- Whether the engine provides the buffer for all effects. -/
  shared : Bool
  constants : List ShaderConstant
  /-- The stages that refer to a constant of the buffer. -/
  stages : StageSet := .empty

/-- The layout of the constants of a buffer. -/
def ConstantBuffer.layout (buffer : ConstantBuffer) (packing : Packing) : BufferLayout :=
  packing.layout (buffer.constants.map fun constant => (constant.name, constant.type))

/-- A value that is written into the shader source. -/
structure ShaderLiteral where
  name : String
  /-- The type of the literal, or of its elements if it is an array. -/
  type : DataType
  value : Expr
  location : Location := {}

namespace ShaderLiteral

/-- The elements of an array literal. -/
def elements? (literal : ShaderLiteral) : Option (List Expr) :=
  match literal.value.unparenthesized.kind with
  | .arrayCreation _ _ (some values) => some values
  | .arrayInitializer values => some values
  | _ => none

def isArray (literal : ShaderLiteral) : Bool :=
  literal.elements?.isSome

/-- The number of elements of an array literal. -/
def length? (literal : ShaderLiteral) : Option Nat :=
  literal.elements?.map List.length

end ShaderLiteral

/-- A texture with the sampler at the same slot. -/
structure ShaderTexture where
  name : String
  type : DataType
  slot : UInt32
  /-- The stages that refer to the texture. -/
  stages : StageSet := .empty
  location : Location := {}

/-- Whether a stage parameter is read or written. -/
inductive Direction where
  | input
  | output
  deriving DecidableEq

/-- The direction as written in messages. -/
def Direction.describe : Direction → String
  | input => "input"
  | output => "output"

/-- An input or output of a stage. -/
structure ShaderParameter where
  name : String
  type : DataType
  semantics : Semantics
  direction : Direction
  location : Location := {}
  deriving DecidableEq

/-- A method that is a vertex or a fragment shader. -/
structure ShaderMethod where
  name : String
  stage : Stage
  parameters : List ShaderParameter
  body : List Stmt
  location : Location := {}

namespace ShaderMethod

/-- The parameters of a direction, in declaration order. -/
def parametersOf (method : ShaderMethod) (direction : Direction) : List ShaderParameter :=
  method.parameters.filter (·.direction == direction)

def inputs (method : ShaderMethod) : List ShaderParameter :=
  method.parametersOf .input

def outputs (method : ShaderMethod) : List ShaderParameter :=
  method.parametersOf .output

/-- The first parameter with a name. -/
def parameter? (method : ShaderMethod) (name : String) : Option ShaderParameter :=
  method.parameters.find? (·.name == name)

end ShaderMethod

/-- A pair of a vertex and a fragment shader. -/
structure Technique where
  name : String
  vertex : String
  fragment : String
  location : Location := {}

/-- An effect. -/
structure Effect where
  name : String
  enclosingNamespace : Option String := none
  documentation : List String := []
  /-- The constant buffers in slot order. -/
  buffers : List ConstantBuffer
  methods : List ShaderMethod
  literals : List ShaderLiteral
  textures : List ShaderTexture
  techniques : List Technique
  location : Location := {}

namespace Effect

def method? (effect : Effect) (name : String) : Option ShaderMethod :=
  effect.methods.find? (·.name == name)

def methodsOf (effect : Effect) (stage : Stage) : List ShaderMethod :=
  effect.methods.filter (·.stage == stage)

def literal? (effect : Effect) (name : String) : Option ShaderLiteral :=
  effect.literals.find? (·.name == name)

def texture? (effect : Effect) (name : String) : Option ShaderTexture :=
  effect.textures.find? (·.name == name)

def technique? (effect : Effect) (name : String) : Option Technique :=
  effect.techniques.find? (·.name == name)

def buffer? (effect : Effect) (name : String) : Option ConstantBuffer :=
  effect.buffers.find? (·.name == name)

/-- The first constant with a name, with the buffer that holds it. -/
def constant? (effect : Effect) (name : String) : Option (ConstantBuffer × ShaderConstant) :=
  effect.buffers.findSome? fun buffer =>
    (buffer.constants.find? (·.name == name)).map fun constant => (buffer, constant)

/-- The buffers that the effect itself declares. -/
def userBuffers (effect : Effect) : List ConstantBuffer :=
  effect.buffers.filter (!·.shared)

/-- The names of the constants that the engine provides. -/
def systemConstantNames (effect : Effect) : List String :=
  (effect.buffers.filter (·.shared)).flatMap fun buffer => buffer.constants.map (·.name)

/-- The vertex and the fragment method of a technique. -/
def techniqueMethods? (effect : Effect) (technique : Technique) :
    Option (ShaderMethod × ShaderMethod) := do
  return (← effect.method? technique.vertex, ← effect.method? technique.fragment)

end Effect

end ShaderEffect
