import ShaderEffect.Effect.Basic
import ShaderEffect.Json.Decoder

/-!
# Wrapper models

Everything that a wrapper of an effect in the host language needs to upload constants, to bind
textures and to select techniques.
-/

namespace ShaderEffect

/-- A constant with its offsets in both layouts of its buffer. -/
structure WrapperConstant where
  name : String
  type : DataType
  hlslOffset : UInt32
  glslOffset : UInt32
  documentation : List String
  deriving DecidableEq

/-- A buffer with its sizes in both layouts. -/
structure WrapperBuffer where
  name : String
  slot : UInt32
  hlslSize : UInt32
  glslSize : UInt32
  shared : Bool
  members : List WrapperConstant
  stages : StageSet
  deriving DecidableEq

structure WrapperTexture where
  name : String
  slot : UInt32
  type : DataType
  stages : StageSet
  deriving DecidableEq

structure WrapperTechnique where
  name : String
  vertex : String
  fragment : String
  deriving DecidableEq

/-- What a wrapper of an effect is generated from. -/
structure Wrapper where
  name : String
  enclosingNamespace : Option String
  documentation : List String
  buffers : List WrapperBuffer
  textures : List WrapperTexture
  techniques : List WrapperTechnique
  deriving DecidableEq

/-- The constants of a buffer with their places in both layouts. -/
def ConstantBuffer.wrapperMembers (buffer : ConstantBuffer) : List WrapperConstant :=
  let hlsl := (buffer.layout .hlsl).members
  let glsl := (buffer.layout .std140).members
  ((hlsl.zip glsl).zip buffer.constants).map fun ((hlsl, glsl), constant) =>
    { name := hlsl.name
      type := hlsl.type
      hlslOffset := hlsl.offset
      glslOffset := glsl.offset
      documentation := constant.documentation }

/-- The wrapper model of a buffer. -/
def ConstantBuffer.wrapper (buffer : ConstantBuffer) : WrapperBuffer :=
  { name := buffer.name
    slot := buffer.slot
    hlslSize := (buffer.layout .hlsl).size
    glslSize := (buffer.layout .std140).size
    shared := buffer.shared
    members := buffer.wrapperMembers
    stages := buffer.stages }

/-- The wrapper model of an effect. -/
def Effect.wrapper (effect : Effect) : Wrapper :=
  { name := effect.name
    enclosingNamespace := effect.enclosingNamespace
    documentation := effect.documentation
    buffers := effect.buffers.map ConstantBuffer.wrapper
    textures := effect.textures.map fun texture =>
      { name := texture.name, slot := texture.slot, type := texture.type, stages := texture.stages }
    techniques := effect.techniques.map fun technique =>
      { name := technique.name, vertex := technique.vertex, fragment := technique.fragment } }

/-- The buffer with a name. -/
def Wrapper.buffer? (model : Wrapper) (name : String) : Option WrapperBuffer :=
  model.buffers.find? (·.name == name)

/-! ## The JSON form -/

def StageSet.toJson (stages : StageSet) : Json :=
  .object [("vertex", .bool stages.vertex), ("fragment", .bool stages.fragment)]

def WrapperConstant.toJson (constant : WrapperConstant) : Json :=
  .object
    [("name", .string constant.name),
      ("ty", .string constant.type.tag),
      ("offset", .ofNat constant.hlslOffset.toNat),
      ("glsl_offset", .ofNat constant.glslOffset.toNat),
      ("documentation", .ofList .string constant.documentation)]

def WrapperBuffer.toJson (buffer : WrapperBuffer) : Json :=
  .object
    [("name", .string buffer.name),
      ("slot", .ofNat buffer.slot.toNat),
      ("size", .ofNat buffer.hlslSize.toNat),
      ("glsl_size", .ofNat buffer.glslSize.toNat),
      ("shared", .bool buffer.shared),
      ("members", .ofList WrapperConstant.toJson buffer.members),
      ("stages", buffer.stages.toJson)]

def WrapperTexture.toJson (texture : WrapperTexture) : Json :=
  .object
    [("name", .string texture.name),
      ("slot", .ofNat texture.slot.toNat),
      ("ty", .string texture.type.tag),
      ("stages", texture.stages.toJson)]

def WrapperTechnique.toJson (technique : WrapperTechnique) : Json :=
  .object
    [("name", .string technique.name),
      ("vertex", .string technique.vertex),
      ("fragment", .string technique.fragment)]

def Wrapper.toJson (model : Wrapper) : Json :=
  .object
    [("name", .string model.name),
      ("namespace", .ofOption .string model.enclosingNamespace),
      ("documentation", .ofList .string model.documentation),
      ("buffers", .ofList WrapperBuffer.toJson model.buffers),
      ("textures", .ofList WrapperTexture.toJson model.textures),
      ("techniques", .ofList WrapperTechnique.toJson model.techniques)]

end ShaderEffect
