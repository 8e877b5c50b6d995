import ShaderEffect.Diagnostic
import ShaderEffect.Effect.Fault
import ShaderEffect.Effect.Reference
import ShaderEffect.Tree.Resolution

/-!
# Building the model of an effect

Fields become literals, textures, constants and techniques; tagged methods become shader methods. A
declaration with structural faults has no model, and all its faults are reported.
-/

namespace ShaderEffect

/-! ## Host names -/

/-- The base type of effects. -/
def effectBaseName : String := "Effect"

/-- The attribute that marks an effect. -/
def effectAttributeName : String := "Effect"

/-- The attribute that marks a constant. -/
def constantAttributeName : String := "Constant"

/-- The type of technique fields. -/
def techniqueTypeName : String := "Technique"

/-- The name of the buffer with the camera matrices. -/
def cameraBufferName : String := "Camera"

/-- The name of the buffer with the size of the viewport. -/
def viewportBufferName : String := "Viewport"

/-- The buffer of constants whose attribute names none. -/
def defaultBufferName : String := "Constants"

/-- The first slot of the buffers that effects declare. -/
def firstUserSlot : UInt32 := 2

/-- The shader type of a declared type; arrays and pointers have none. -/
def TypeRef.dataType (type : TypeRef) : DataType :=
  match type.name? with
  | some name => DataType.ofHostName name
  | none => .unknown

/-- Whether a type reference names a type, whatever its qualification. -/
def TypeRef.hasShortName (type : TypeRef) (name : String) : Bool :=
  type.name?.any fun declared => unqualified declared == name

namespace TypeDecl

def derivesFromEffect (decl : TypeDecl) : Bool :=
  decl.baseTypes.any (·.hasShortName effectBaseName)

def hasEffectAttribute (decl : TypeDecl) : Bool :=
  hasAttribute decl.attributes effectAttributeName

/-- Whether the declaration is an effect, by its base type or by its attribute. -/
def isEffectCandidate (decl : TypeDecl) : Bool :=
  decl.derivesFromEffect || decl.hasEffectAttribute

end TypeDecl

/-! ## Fields -/

namespace FieldDecl

def isTechnique (field : FieldDecl) : Bool :=
  field.type.hasShortName techniqueTypeName

def isConstant (field : FieldDecl) : Bool :=
  hasAttribute field.attributes constantAttributeName

/-- The shader type of the field, or of its elements if it is an array. -/
def elementDataType (field : FieldDecl) : DataType :=
  match field.type with
  | .array element => element.dataType
  | type => type.dataType

/-- Whether the field is a texture: of a texture type, and nothing else before that. -/
def isTexture (field : FieldDecl) : Bool :=
  !field.isConstant && !field.isTechnique && field.elementDataType.isTexture && !field.type.isArray

/-- The texture that a field declares, at a slot. -/
def textureAt (field : FieldDecl) (slot : UInt32) : ShaderTexture :=
  { name := field.name, type := field.elementDataType, slot, location := field.location }

/-- The literal that a field with an initializer declares, if it declares nothing else. -/
def literal? (field : FieldDecl) : Option ShaderLiteral :=
  if field.isConstant || field.isTechnique || field.isTexture then none
  else field.initializer.map fun value =>
    { name := field.name, type := field.elementDataType, value, location := field.location }

end FieldDecl

/-- Adds the texture that a field declares, if it is one, at the slot after those in use. -/
def addTexture (textures : List ShaderTexture) (field : FieldDecl) : List ShaderTexture :=
  if field.isTexture then textures ++ [field.textureAt (.ofNat textures.length)] else textures

/-- The textures among the fields, with slots in declaration order. -/
def scanTextures (fields : List FieldDecl) : List ShaderTexture :=
  fields.foldl addTexture []

/-- The literals among the fields. -/
def scanLiterals (fields : List FieldDecl) : List ShaderLiteral :=
  fields.filterMap FieldDecl.literal?

/-! ## Methods -/

/-- What the stage attributes of a method say. -/
inductive StageTag where
  | untagged
  | tagged (stage : Stage)
  | conflicting
  deriving DecidableEq

/-- The stage that a method is tagged with. -/
def MethodDecl.stageTag (method : MethodDecl) : StageTag :=
  match hasAttribute method.attributes Stage.vertex.attributeName,
      hasAttribute method.attributes Stage.fragment.attributeName with
  | false, false => .untagged
  | true, false => .tagged .vertex
  | false, true => .tagged .fragment
  | true, true => .conflicting

/-- A fault at a position. -/
abbrev Fault := Located BuildFault

/-- The index that a semantics attribute carries: its first positional argument, or 0. -/
def ResolvedAttribute.semanticsIndex? (attr : ResolvedAttribute) : Option Int64 :=
  match attr.positional? 0 with
  | none => some 0
  | some argument => argument.value.bind Value.int?

/-- The semantics that an attribute with an index declares. -/
def semanticsAt? (attributeName : String) (index : Int64) : Option Semantics :=
  if 0 ≤ index.toInt then Semantics.ofAttribute? attributeName index.toInt.toNat else none

/-- The stage parameter that a declared parameter becomes. -/
def scanParameter (method : MethodDecl) (parameter : ParamDecl) : Except Fault ShaderParameter :=
  let fault (location : Location) (value : BuildFault) : Except Fault ShaderParameter :=
    .error { location, value }
  let type := parameter.type.dataType
  if parameter.type.isArray then
    fault parameter.location (.arrayParameter parameter.name method.name)
  else if !type.isParameterType then
    fault parameter.location (.parameterType parameter.name method.name parameter.type)
  else
    match (parameter.attributes.map Attribute.resolve).filter fun attr =>
        Semantics.isAttributeName attr.name with
    | [attr] =>
      match attr.semanticsIndex? with
      | none => fault attr.location (.semanticsIndexKind parameter.name)
      | some index =>
        match semanticsAt? attr.name index with
        | none => fault attr.location (.semanticsIndexRange attr.name index parameter.name)
        | some semantics =>
          .ok {
            name := parameter.name
            type
            semantics
            direction := if parameter.mode = .out then .output else .input
            location := parameter.location }
    | _ => fault parameter.location (.semanticsCount parameter.name method.name)

/-- The stage parameters of a method and the faults of those that have none. -/
def scanParameters (method : MethodDecl) :
    List ParamDecl → List ShaderParameter × List Fault
  | [] => ([], [])
  | parameter :: rest =>
    let (parameters, faults) := scanParameters method rest
    match scanParameter method parameter with
    | .ok scanned => (scanned :: parameters, faults)
    | .error fault => (parameters, fault :: faults)

/-- The shader method that a tagged method becomes, and its faults. -/
def scanMethod (stage : Stage) (method : MethodDecl) : ShaderMethod × List Fault :=
  let (parameters, parameterFaults) := scanParameters method method.parameters
  let bodyFaults : List Fault :=
    if method.body.isNone then
      [{ location := method.location, value := .missingBody method.name }]
    else []
  ({ name := method.name
     stage
     parameters
     body := method.body.getD []
     location := method.location },
    bodyFaults ++ parameterFaults)

/-- The shader methods among the methods, and their faults. A name counts once; `seen` holds those
that are taken. -/
def scanMethods (seen : List String) : List MethodDecl → List ShaderMethod × List Fault
  | [] => ([], [])
  | method :: rest =>
    match method.stageTag with
    | .untagged => scanMethods seen rest
    | .conflicting =>
      let (methods, faults) := scanMethods seen rest
      (methods, { location := method.location, value := .bothStages method.name } :: faults)
    | .tagged stage =>
      if seen.contains method.name then
        let (methods, faults) := scanMethods seen rest
        (methods, { location := method.location, value := .repeatedMethod method.name } :: faults)
      else
        let (scanned, ownFaults) := scanMethod stage method
        let (methods, faults) := scanMethods (method.name :: seen) rest
        (scanned :: methods, ownFaults ++ faults)

/-! ## Constants -/

/-- The buffer that a constant attribute names: its argument `Buffer`, else its first positional
argument, else the default. -/
def ResolvedAttribute.bufferName? (attr : ResolvedAttribute) : Option String :=
  match (attr.named? "Buffer").or (attr.positional? 0) with
  | none => some defaultBufferName
  | some argument => argument.value.bind Value.string?

/-- The constant that a field with a constant attribute declares, with the name of its buffer. -/
def scanConstant (field : FieldDecl) (attr : ResolvedAttribute) :
    Except Fault (String × ShaderConstant) :=
  match attr.bufferName? with
  | none => .error { location := attr.location, value := .bufferNameKind field.name }
  | some buffer =>
    let type := field.type.dataType
    if type.isValueType then
      .ok (buffer, {
        name := field.name
        type
        documentation := field.documentation
        location := field.location })
    else .error { location := field.location, value := .constantType field.name field.type }

/-- The constants among the fields with the names of their buffers, and the faults of the others. -/
def scanConstants : List FieldDecl → List (String × ShaderConstant) × List Fault
  | [] => ([], [])
  | field :: rest =>
    let (constants, faults) := scanConstants rest
    match findAttribute? field.attributes constantAttributeName with
    | none => (constants, faults)
    | some attr =>
      match scanConstant field attr with
      | .ok constant => (constant :: constants, faults)
      | .error fault => (constants, fault :: faults)

/-- Adds a constant to the buffer with a name. Without such a buffer it starts a new one, whose
slot is given out later. -/
def addConstant (name : String) (constant : ShaderConstant) :
    List ConstantBuffer → List ConstantBuffer
  | [] => [{ name, slot := 0, shared := false, constants := [constant] }]
  | buffer :: rest =>
    if buffer.name == name then
      { buffer with constants := buffer.constants ++ [constant] } :: rest
    else buffer :: addConstant name constant rest

/-- Gives out slots in the order of the buffers. -/
def numberBuffers (slot : UInt32) : List ConstantBuffer → List ConstantBuffer
  | [] => []
  | buffer :: rest => { buffer with slot } :: numberBuffers (slot + 1) rest

/-- The buffers of the constants, at slots in the order of their first appearance. -/
def groupConstants (constants : List (String × ShaderConstant)) : List ConstantBuffer :=
  numberBuffers firstUserSlot
    (constants.foldl (fun buffers constant => addConstant constant.1 constant.2 buffers) [])

/-- The buffers that the engine provides for all effects. -/
def systemBuffers : List ConstantBuffer :=
  [ { name := cameraBufferName
      slot := 0
      shared := true
      constants := [
        { name := "View", type := .matrix },
        { name := "Projection", type := .matrix },
        { name := "ViewProjection", type := .matrix }] },
    { name := viewportBufferName
      slot := 1
      shared := true
      constants := [{ name := "ViewportSize", type := .vector2 }] } ]

/-- Inserts a buffer in front of the first one whose slot is not smaller. -/
def insertBySlot (buffer : ConstantBuffer) : List ConstantBuffer → List ConstantBuffer
  | [] => [buffer]
  | first :: rest =>
    if buffer.slot ≤ first.slot then buffer :: first :: rest
    else first :: insertBySlot buffer rest

/-- The buffers in slot order; those at the same slot stay in their order. -/
def sortBySlot : List ConstantBuffer → List ConstantBuffer
  | [] => []
  | buffer :: rest => insertBySlot buffer (sortBySlot rest)

/-- The buffers of the engine and of the effect in slot order. -/
def mergeBuffers (system user : List ConstantBuffer) : List ConstantBuffer :=
  sortBySlot (system ++ user)

/-! ## Techniques -/

/-- The names of the shaders that a technique field is initialized with. -/
def techniqueArguments? (field : FieldDecl) : Option (String × String) := do
  let initializer ← field.initializer
  match initializer.unparenthesized.kind with
  | .objectCreation _ [vertex, fragment] _ =>
    let vertexName ← vertex.value.constant?.bind Value.string?
    let fragmentName ← fragment.value.constant?.bind Value.string?
    return (vertexName, fragmentName)
  | _ => none

/-- The faults of a reference from a technique to a method of a stage. -/
def techniqueFaults (methods : List ShaderMethod) (field : FieldDecl) (stage : Stage)
    (name : String) : List Fault :=
  match methods.find? (·.name == name) with
  | none =>
    [{ location := field.location, value := .techniqueUnknownMethod field.name name }]
  | some method =>
    if method.stage = stage then []
    else
      [{ location := field.location
         value := .techniqueStage field.name stage name method.stage }]

/-- The technique that a technique field declares. -/
def scanTechnique (methods : List ShaderMethod) (field : FieldDecl) :
    Except (List Fault) Technique :=
  match techniqueArguments? field with
  | none => .error [{ location := field.location, value := .techniqueForm field.name }]
  | some (vertex, fragment) =>
    match techniqueFaults methods field .vertex vertex ++
        techniqueFaults methods field .fragment fragment with
    | [] => .ok { name := field.name, vertex, fragment, location := field.location }
    | faults => .error faults

/-- The techniques among the fields, and the faults of those that are malformed. -/
def scanTechniques (methods : List ShaderMethod) :
    List FieldDecl → List Technique × List Fault
  | [] => ([], [])
  | field :: rest =>
    let (techniques, faults) := scanTechniques methods rest
    if field.isTechnique then
      match scanTechnique methods field with
      | .ok technique => (technique :: techniques, faults)
      | .error own => (techniques, own ++ faults)
    else (techniques, faults)

/-! ## Effects -/

/-- The faults of an effect that lacks a stage or a technique. A malformed technique counts as
declared. -/
def completenessFaults (decl : TypeDecl) (methods : List ShaderMethod)
    (techniques : List Technique) : List Fault :=
  let stageFaults : List Fault := (Stage.all.filter fun stage => !methods.any (·.stage == stage)).map
    fun stage => { location := decl.location, value := .missingStage decl.name stage }
  let techniqueFaults : List Fault :=
    if techniques.isEmpty && !decl.fields.any FieldDecl.isTechnique then
      [{ location := decl.location, value := .missingTechnique decl.name }]
    else []
  stageFaults ++ techniqueFaults

/-- The parts of an effect that the declaration describes, and all structural faults. -/
def TypeDecl.scan (decl : TypeDecl) : Effect × List Fault :=
  let (methods, methodFaults) := scanMethods [] decl.methods
  let (constants, constantFaults) := scanConstants decl.fields
  let (techniques, techniqueFaults) := scanTechniques methods decl.fields
  let effect : Effect :=
    { name := decl.name
      enclosingNamespace := decl.enclosingNamespace
      documentation := decl.documentation
      buffers := mergeBuffers systemBuffers (groupConstants constants)
      methods
      literals := scanLiterals decl.fields
      textures := scanTextures decl.fields
      techniques
      location := decl.location }
  (effect.withStages,
    methodFaults ++ constantFaults ++ techniqueFaults ++
      completenessFaults decl methods techniques)

/-- A fault as an error in the source. -/
def Fault.toDiagnostic (fault : Fault) : Diagnostic :=
  { severity := .error, location := fault.location, message := fault.value.message }

/-- The outcome of building a model, and what was reported on the way. -/
structure BuildReport where
  result : Except BuildError Effect
  diagnostics : Diagnostics

/-- Builds the model of an effect declaration and reports its faults to a sink. The faults are
counted on the way, and a model is only given out if there are none. -/
def TypeDecl.buildInto (decl : TypeDecl) (sink : Diagnostics) : BuildReport :=
  if decl.isEffectCandidate then
    let (effect, faults) := decl.scan
    let counter := ErrorCounter.reportAll { sink } (faults.map Fault.toDiagnostic)
    { result :=
        if 0 < counter.errors then .error (.structural decl.name counter.errors) else .ok effect
      diagnostics := counter.sink }
  else { result := .error (.notAnEffect decl.name), diagnostics := sink }

/-- Builds the model of an effect declaration with a sink of its own. -/
def TypeDecl.build (decl : TypeDecl) : BuildReport :=
  decl.buildInto []

end ShaderEffect
