import ShaderEffect.Shader.Statement
import ShaderEffect.Text.Uppercase

/-!
# Shader units

A complete source text for one shader method: literals, constant buffers, textures, the stage
interface and the entry point.
-/

namespace ShaderEffect

/-- The declaration of a buffer or a texture: its lines, and the slots by name that the application
has to bind. -/
structure ResourceDeclaration where
  lines : List Line
  bindings : List (String × UInt32)

/-- The unit of a shader method: its lines, and the slots by name that the application has to bind
samplers and uniform blocks to. -/
structure ShaderUnit where
  lines : List Line
  samplerBindings : List (String × UInt32)
  blockBindings : List (String × UInt32)

namespace Dialect

/-- The lines before all declarations. -/
def header : Dialect → List Line
  | hlsl => []
  | glsl version => [{ text := s!"#version {version.number} core" }, .blank]

/-- The declaration of a literal. -/
def writeLiteral (dialect : Dialect) (scope : Scope) (literal : ShaderLiteral) :
    Except CompileError Line := do
  match literal.elements? with
  | some elements =>
    let values ← dialect.renderTexts scope elements
    let type ← dialect.typeName literal.type
    let array := s!"{literal.name}[{values.length}]"
    let list := commaSeparated values
    match dialect with
    | hlsl => return { text := s!"static const {type} {array} = \x7b {list} \x7d;" }
    | glsl _ => return { text := s!"const {type} {array} = {type}[{values.length}]({list});" }
  | none =>
    let value ← dialect.renderText scope literal.value
    let type ← dialect.typeName literal.type
    match dialect with
    | hlsl => return { text := s!"static const {type} {literal.name} = {value};" }
    | glsl _ => return { text := s!"const {type} {literal.name} = {value};" }

/-- The layout rule of constant buffers. -/
def packing : Dialect → Packing
  | hlsl => .hlsl
  | glsl _ => .std140

/-- The declaration of a member of a buffer, with its offset as a comment. -/
def bufferMember (dialect : Dialect) (member : MemberLayout) : Except CompileError Line := do
  let type ← dialect.typeName member.type
  let order := if dialect = hlsl && member.type.isMatrix then "row_major " else ""
  return { depth := 1, text := s!"{order}{type} {member.name}; // offset {member.offset}" }

/-- The lines in front of the members of a buffer: its size, and its name with its slot. -/
def bufferHead (dialect : Dialect) (buffer : ConstantBuffer) (size : UInt32) : List Line :=
  let sizeName := s!"{Text.uppercase buffer.name}_SIZE"
  match dialect with
  | hlsl =>
    [{ text := s!"#define {sizeName} {size}" },
      { text := s!"cbuffer {buffer.name} : register(b{buffer.slot}) // {size} bytes" }]
  | glsl version =>
    let binding := if version.supportsBinding then s!", binding = {buffer.slot}" else ""
    [{ text := s!"const int {sizeName} = {size};" },
      { text :=
          s!"layout(std140, column_major{binding}) uniform {buffer.name} // {size} bytes" }]

/-- The slot of a resource by name, where the application has to bind it because the source cannot
say so. -/
def openBindings (dialect : Dialect) (name : String) (slot : UInt32) : List (String × UInt32) :=
  match dialect with
  | hlsl => []
  | glsl version => if version.supportsBinding then [] else [(name, slot)]

/-- The declaration of a constant buffer. -/
def writeBuffer (dialect : Dialect) (buffer : ConstantBuffer) :
    Except CompileError ResourceDeclaration := do
  let layout := buffer.layout dialect.packing
  let members ← layout.members.mapM dialect.bufferMember
  return {
    lines := dialect.bufferHead buffer layout.size ++ { text := "\x7b" } :: members ++
      [{ text := "\x7d;" }, .blank]
    bindings := dialect.openBindings buffer.name buffer.slot }

/-- The declaration of a texture, with its sampler where that is a variable of its own. -/
def writeTexture (dialect : Dialect) (texture : ShaderTexture) :
    Except CompileError ResourceDeclaration := do
  let type ← dialect.typeName texture.type
  let bindings := dialect.openBindings texture.name texture.slot
  match dialect with
  | hlsl =>
    let sampler := hlslSamplerName texture.name
    return {
      lines := [{ text := s!"{type} {texture.name} : register(t{texture.slot});" },
        { text := s!"SamplerState {sampler} : register(s{texture.slot});" }]
      bindings }
  | glsl version =>
    let binding := if version.supportsBinding then s!"layout(binding = {texture.slot}) " else ""
    return { lines := [{ text := s!"{binding}uniform {type} {texture.name};" }], bindings }

/-- The HLSL structure that holds the parameters of a direction. -/
def hlslStruct (method : ShaderMethod) (direction : Direction) :
    Except CompileError (List Line) := do
  let fields ← (method.parametersOf direction).mapM fun parameter => do
    let type ← hlsl.typeName parameter.type
    return { depth := 1, text := s!"{type} {parameter.name} : {hlslSemantic method parameter};" }
  return { text := s!"struct {hlslStructName method direction}" } :: { text := "\x7b" } ::
    fields ++ [{ text := "\x7d;" }, Line.blank]

/-- Whether GLSL gives the parameters of a direction locations: those that connect the shader to
the application. -/
def isLocated : Stage → Direction → Bool
  | .vertex, .input | .fragment, .output => true
  | .vertex, .output | .fragment, .input => false

/-- The GLSL variables of the stage parameters, where `location` is the next free one. -/
def glslVariables (version : GlslVersion) (stage : Stage) (location : Nat) :
    List ShaderParameter → Except CompileError (List Line)
  | [] => return []
  | parameter :: rest =>
    match glslVariable? stage parameter with
    | none => glslVariables version stage location rest
    | some name => do
      let type ← (glsl version).typeName parameter.type
      let qualifier := match parameter.direction with
        | .input => "in"
        | .output => "out"
      let declaration := s!"{qualifier} {type} {name};"
      if isLocated stage parameter.direction then
        let lines ← glslVariables version stage (location + 1) rest
        return { text := s!"layout(location = {location}) {declaration}" } :: lines
      else
        let lines ← glslVariables version stage location rest
        return { text := declaration } :: lines

/-- The declarations of the stage parameters. -/
def writeInterface (dialect : Dialect) (method : ShaderMethod) :
    Except CompileError (List Line) := do
  match dialect with
  | hlsl => return (← hlslStruct method .input) ++ (← hlslStruct method .output)
  | glsl version => return (← glslVariables version method.stage 0 method.parameters) ++ [.blank]

/-- The beginning of the entry point. -/
def entryPointBegin (dialect : Dialect) (method : ShaderMethod) : List Line :=
  match dialect with
  | hlsl =>
    let input := hlslStructName method .input
    let output := hlslStructName method .output
    [{ text := s!"{output} {method.name}({input} {hlslInputVariable})" },
      { text := "\x7b" },
      { depth := 1, text := s!"{output} {hlslOutputVariable} = ({output})0;" }]
  | glsl _ => [{ text := "void main()" }, { text := "\x7b" }]

/-- Whether the last statement of a body is a return. -/
def endsWithReturn (body : List Stmt) : Bool :=
  match body.getLast? with
  | some ⟨.returning _, _⟩ => true
  | _ => false

/-- The end of the entry point. In HLSL the outputs are returned, unless the body has done so. -/
def entryPointEnd (dialect : Dialect) (method : ShaderMethod) : List Line :=
  if dialect = hlsl && !endsWithReturn method.body then
    [{ depth := 1, text := dialect.returnStatement }, { text := "\x7d" }]
  else [{ text := "\x7d" }]

/-- A blank line after a group of declarations that is not empty. -/
def gapAfter {α : Type} (declarations : List α) : List Line :=
  if declarations.isEmpty then [] else [.blank]

/-- The unit of a shader method. -/
def writeUnit (dialect : Dialect) (effect : Effect) (method : ShaderMethod) :
    Except CompileError ShaderUnit := do
  let scope : Scope := { effect, method }
  let literals ← effect.literals.mapM (dialect.writeLiteral scope)
  let buffers ← effect.buffers.mapM dialect.writeBuffer
  let textures ← effect.textures.mapM dialect.writeTexture
  let interface ← dialect.writeInterface method
  let (_, body) ← dialect.writeStmts 1 scope method.body
  return {
    lines := dialect.header ++ literals ++ gapAfter effect.literals ++
      buffers.flatMap (·.lines) ++ textures.flatMap (·.lines) ++ gapAfter effect.textures ++
      interface ++ dialect.entryPointBegin method ++ body ++ dialect.entryPointEnd method
    samplerBindings := textures.flatMap (·.bindings)
    blockBindings := buffers.flatMap (·.bindings) }

end Dialect

/-- The source text of a shader method in a target language. Where the source cannot bind resources
to slots, the application has to: samplers to texture units and uniform blocks to binding points, by
name. -/
structure CompiledShader where
  stage : Stage
  source : String
  samplerBindings : List (String × UInt32)
  blockBindings : List (String × UInt32)

/-- Compile a shader method of an effect. -/
def Effect.compile (effect : Effect) (dialect : Dialect) (method : String) :
    Except CompileError CompiledShader :=
  match effect.method? method with
  | none => throw (.unknownMethod method)
  | some shader => do
    let unit ← dialect.writeUnit effect shader
    return {
      stage := shader.stage
      source := Line.renderAll unit.lines
      samplerBindings := unit.samplerBindings
      blockBindings := unit.blockBindings }

/-- The HLSL profile of a stage. -/
def Stage.hlslProfile : Stage → String
  | vertex => "vs_5_0"
  | fragment => "ps_5_0"

end ShaderEffect
