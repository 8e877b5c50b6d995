import ShaderEffect.Effect.Basic

/-!
# Shader assets

The binary format of a packaged shader method. A vertex shader asset starts with the vertex input
layout: the number of elements, and for each of them its format and its semantics, one byte each.
Both stages go on with two sources, HLSL and then GLSL, each after its length in bytes as four
bytes, the lowest first.
-/

namespace ShaderEffect

/-- One element of a vertex input layout. -/
structure VertexElement where
  format : ElementFormat
  semantics : Semantics
  deriving DecidableEq

/-- An input that has no vertex element format. -/
structure UnplacedInput where
  parameter : String
  method : String
  deriving DecidableEq

/-- The vertex input layout of a method, in parameter order. -/
def ShaderMethod.vertexLayout (method : ShaderMethod) :
    Except UnplacedInput (List VertexElement) :=
  method.inputs.mapM fun input =>
    match ElementFormat.ofDataType? input.type with
    | some format => return { format, semantics := input.semantics }
    | none => throw { parameter := input.name, method := method.name }

/-- The file name of the asset of a shader method. -/
def assetFileName (effect method : String) (stage : Stage) : String :=
  s!"{effect}_{method}.{stage.fileSuffix}.bin"

/-- A packaged shader method. -/
structure Asset where
  stage : Stage
  /-- The vertex input layout, empty for fragment shaders. -/
  inputs : List VertexElement
  hlsl : String
  glsl : String
  deriving DecidableEq

/-- What an asset cannot hold, or why bytes are not an asset. -/
inductive AssetError where
  | tooManyInputs
  | sourceTooLong
  | unexpectedEnd
  | invalidSemantics (byte : UInt8)
  | invalidFormat (byte : UInt8)
  | invalidText
  deriving DecidableEq

/-- The wording of an asset error. -/
def AssetError.message : AssetError → String
  | tooManyInputs => "input count does not fit the asset format"
  | sourceTooLong => "source length does not fit the asset format"
  | unexpectedEnd => "unexpected end of asset"
  | invalidSemantics byte => s!"invalid semantics value {byte}"
  | invalidFormat byte => s!"invalid vertex element format {byte}"
  | invalidText => "shader source is not valid UTF-8"

namespace Asset

/-! ## Writing -/

/-- A length as four bytes, the lowest first. -/
def lengthBytes (n : Nat) : List UInt8 :=
  [UInt8.ofNat n, UInt8.ofNat (n / 0x100), UInt8.ofNat (n / 0x10000), UInt8.ofNat (n / 0x1000000)]

/-- The bytes of a text. -/
def textBytes (text : String) : List UInt8 :=
  text.toUTF8.data.toList

/-- A source after its length. -/
def sourceBytes (source : String) : Except AssetError (List UInt8) :=
  let bytes := textBytes source
  if bytes.length < UInt32.size then return lengthBytes bytes.length ++ bytes
  else throw .sourceTooLong

/-- The elements of a vertex input layout. -/
def elementBytes (inputs : List VertexElement) : List UInt8 :=
  inputs.flatMap fun element => [element.format.toByte, element.semantics.toByte]

/-- The vertex input layout after its length; a fragment shader has none. -/
def layoutBytes (stage : Stage) (inputs : List VertexElement) : Except AssetError (List UInt8) :=
  match stage with
  | .fragment => return []
  | .vertex =>
    if inputs.length < UInt8.size then return UInt8.ofNat inputs.length :: elementBytes inputs
    else throw .tooManyInputs

/-- The bytes of an asset. -/
def toBytes (asset : Asset) : Except AssetError (List UInt8) := do
  let layout ← layoutBytes asset.stage asset.inputs
  let hlsl ← sourceBytes asset.hlsl
  let glsl ← sourceBytes asset.glsl
  return layout ++ hlsl ++ glsl

/-! ## Reading -/

/-- The first bytes, and the rest. -/
def takeBytes (count : Nat) (bytes : List UInt8) :
    Except AssetError (List UInt8 × List UInt8) :=
  if bytes.length < count then throw .unexpectedEnd
  else return (bytes.take count, bytes.drop count)

/-- The length that four bytes stand for. -/
def lengthOfBytes : List UInt8 → Nat
  | [] => 0
  | byte :: rest => byte.toNat + 0x100 * lengthOfBytes rest

/-- A source after its length, and the rest. -/
def readSource (bytes : List UInt8) : Except AssetError (String × List UInt8) := do
  let (length, bytes) ← takeBytes 4 bytes
  let (text, rest) ← takeBytes (lengthOfBytes length) bytes
  match String.fromUTF8? text.toByteArray with
  | some source => return (source, rest)
  | none => throw .invalidText

/-- A number of elements, and the rest. -/
def readElements : Nat → List UInt8 → Except AssetError (List VertexElement × List UInt8)
  | 0, bytes => return ([], bytes)
  | _ + 1, [] | _ + 1, [_] => throw .unexpectedEnd
  | count + 1, formatByte :: semanticsByte :: bytes =>
    match ElementFormat.ofByte? formatByte, Semantics.ofByte? semanticsByte with
    | none, _ => throw (.invalidFormat formatByte)
    | some _, none => throw (.invalidSemantics semanticsByte)
    | some format, some semantics => do
      let (elements, rest) ← readElements count bytes
      return ({ format, semantics } :: elements, rest)

/-- The vertex input layout that a stage has, and the rest. -/
def readLayout (stage : Stage) (bytes : List UInt8) :
    Except AssetError (List VertexElement × List UInt8) :=
  match stage, bytes with
  | .fragment, bytes => return ([], bytes)
  | .vertex, [] => throw .unexpectedEnd
  | .vertex, count :: bytes => readElements count.toNat bytes

/-- The asset of a stage at the start of some bytes. -/
def ofBytes (bytes : List UInt8) (stage : Stage) : Except AssetError Asset := do
  let (inputs, bytes) ← readLayout stage bytes
  let (hlsl, bytes) ← readSource bytes
  let (glsl, _) ← readSource bytes
  return { stage, inputs, hlsl, glsl }

end Asset

end ShaderEffect
