import ShaderEffect.Check.Violation
import ShaderEffect.Effect.Build
import ShaderEffect.Scope

/-!
# Checking declarations

The rules for the declaration of an effect, its names, its literals and the shape of its shader
methods.
-/

namespace ShaderEffect

/-- The names that parameters and local variables must not hide: the fields of the effect and the
constants of the engine. -/
def memberNames (decl : TypeDecl) (effect : Effect) : List String :=
  decl.fields.map (·.name) ++ effect.systemConstantNames

/-! ## The declaration itself -/

/-- The rules for the effect declaration as a type. -/
def checkEffect (decl : TypeDecl) : List Finding :=
  let location := decl.location
  (if decl.hasEffectAttribute && decl.derivesFromEffect then
      [{ location, value := .bothMarks decl.name }] else []) ++
    (if decl.modifiers = [.publicAccess] then []
      else [{ location, value := .effectModifiers decl.name }]) ++
    (if decl.typeParameters.isEmpty then []
      else [{ location, value := .genericEffect decl.name }]) ++
    ((decl.baseTypes.filter (!·.hasShortName effectBaseName)).map fun base =>
      { location, value := .baseType decl.name base }) ++
    decl.otherMembers.map fun member =>
      { location := member.location, value := .memberKind decl.name member.kind member.name }

/-! ## Names -/

/-- A name must not be a reserved one. -/
def checkReserved (name : String) (location : Location) : List Finding :=
  if isReserved name then [{ location, value := .reservedName name }] else []

/-- The rules for the names of a method and, if it shares its name with a shader method, for the
names of its parameters. -/
def checkMethodNames (members : List String) (effect : Effect) (method : MethodDecl) :
    List Finding :=
  checkReserved method.name method.location ++
    if (effect.method? method.name).isNone then []
    else method.parameters.flatMap fun parameter =>
      checkReserved parameter.name parameter.location ++
        if members.contains parameter.name then
          [{ location := parameter.location
             value := .parameterShadowsMember parameter.name method.name }]
        else []

/-- The rules for the name of a buffer. -/
def checkBufferName (members : List String) (name : String) (location : Location) :
    List Finding :=
  if name = cameraBufferName || name = viewportBufferName then
    [{ location, value := .reservedBuffer name }]
  else if !isIdentifier name then [{ location, value := .bufferIdentifier name }]
  else if isReserved name then checkReserved name location
  else if members.contains name then [{ location, value := .bufferCollision name }]
  else []

/-- The rules for the names of a buffer and its constants. -/
def checkBufferNames (decl : TypeDecl) (members : List String) (effect : Effect)
    (buffer : ConstantBuffer) : List Finding :=
  let location :=
    match buffer.constants with
    | constant :: _ => constant.location
    | [] => decl.location
  checkBufferName members buffer.name location ++
    ((buffer.constants.filter fun constant =>
        effect.systemConstantNames.contains constant.name).map fun constant =>
      { location := constant.location, value := .constantCollision constant.name })

/-- The rules for all declared names. -/
def checkNames (decl : TypeDecl) (effect : Effect) : List Finding :=
  let members := memberNames decl effect
  checkReserved decl.name decl.location ++
    decl.fields.flatMap (fun field => checkReserved field.name field.location) ++
    decl.methods.flatMap (checkMethodNames members effect) ++
    effect.userBuffers.flatMap (checkBufferNames decl members effect)

/-! ## Literals -/

/-- The shader type that an expression names as the receiver of a static property. -/
def namedType? (e : Expr) : Option DataType :=
  match e.annotatedTypeName? with
  | some name => some (DataType.ofHostName name)
  | none =>
    match e.kind with
    | .identifier name => if isKnownType name then some (DataType.ofHostName name) else none
    | _ => none

/-- Whether an expression is a constant of a scalar type. -/
def isScalarConstant (e : Expr) : Bool :=
  match e.constant? with
  | some (.bool _) | some (.int _) | some (.float _) => true
  | _ => false

mutual

/-- Whether an expression is a scalar constant, a vector or matrix of constants, or a static
property. -/
def isConstantValue (e : Expr) : Bool :=
  match e with
  | ⟨.parenthesized inner, _, _⟩ => isConstantValue inner
  | ⟨.objectCreation type arguments none, _, _⟩ =>
    (type.dataType.isVector || type.dataType.isMatrix) && areConstantValues arguments
  | ⟨.memberAccess target member, _, _⟩ =>
    (namedType? target).any fun type => (staticProperty? type member).isSome
  | ⟨.unary .neg operand, _, _⟩ =>
    if e.isConstant then isScalarConstant e else isConstantValue operand
  | ⟨.unary .plus operand, _, _⟩ =>
    if e.isConstant then isScalarConstant e else isConstantValue operand
  | e => isScalarConstant e

/-- Whether all arguments are constant values. -/
def areConstantValues (arguments : List Argument) : Bool :=
  match arguments with
  | [] => true
  | ⟨_, _, value⟩ :: rest => isConstantValue value && areConstantValues rest

end

/-- The rules for a literal: a shader type, and a constant value that is no string. -/
def checkLiteral (decl : TypeDecl) (literal : ShaderLiteral) : List Finding :=
  let location := literal.location
  if !literal.type.isValueType then
    let declared := (decl.fields.find? (·.name == literal.name)).map (·.type.describe)
    [{ location, value := .literalType literal.name (declared.getD "") }]
  else if (literal.value.constant?.bind Value.string?).isSome then
    [{ location, value := .literalString literal.name }]
  else
    let isConstant :=
      match literal.elements? with
      | some values => values.all isConstantValue
      | none => isConstantValue literal.value
    if isConstant then [] else [{ location, value := .literalNotConstant literal.name }]

/-- The rules for all literals. -/
def checkLiterals (decl : TypeDecl) (effect : Effect) : List Finding :=
  effect.literals.flatMap (checkLiteral decl)

/-! ## Shader methods -/

/-- The keyword of a parameter mode that stage parameters cannot have. -/
def PassMode.forbidden? : PassMode → Option String
  | byRef => some "ref"
  | readOnlyRef => some "in"
  | variadic => some "params"
  | byValue | out => none

/-- A vertex shader outputs a position with four components. -/
def checkVertexOutputs (method : ShaderMethod) : List Finding :=
  match method.outputs.find? (·.semantics == .position) with
  | none => [{ location := method.location, value := .missingPosition method.name }]
  | some position =>
    if position.type = .vector4 then []
    else [{ location := position.location, value := .positionType position.name method.name }]

/-- A fragment shader outputs colors, at least one, and nothing else. -/
def checkFragmentOutputs (method : ShaderMethod) : List Finding :=
  (if method.outputs.any (·.semantics.isColor) then []
    else [{ location := method.location, value := .missingColor method.name }]) ++
    (method.outputs.filter (!·.semantics.isColor)).map fun output =>
      { location := output.location
        value := .outputSemantics method.name output.name output.semantics }

/-- The parameters whose semantics another one before them has; `seen` holds the semantics so
far. -/
def repeatedSemantics (seen : List Semantics) : List ShaderParameter → List ShaderParameter
  | [] => []
  | parameter :: rest =>
    if seen.contains parameter.semantics then parameter :: repeatedSemantics seen rest
    else repeatedSemantics (parameter.semantics :: seen) rest

/-- No two parameters of a direction have the same semantics. -/
def checkRepeatedSemantics (method : ShaderMethod) (direction : Direction) : List Finding :=
  (repeatedSemantics [] (method.parametersOf direction)).map fun parameter =>
    { location := parameter.location
      value := .repeatedSemantics parameter.semantics direction method.name }

/-- The rules for a declared method against the shader method with its name. -/
def checkMethod (decl : MethodDecl) (method : ShaderMethod) : List Finding :=
  (if decl.returnType.isVoid then []
    else [{ location := decl.location, value := .returnType decl.name }]) ++
    (if decl.typeParameters.isEmpty then []
      else [{ location := decl.location, value := .genericMethod decl.name }]) ++
    (decl.parameters.flatMap fun parameter =>
      match parameter.mode.forbidden? with
      | some mode =>
        [{ location := parameter.location, value := .passMode parameter.name decl.name mode }]
      | none => []) ++
    (match method.stage with
      | .vertex => checkVertexOutputs method
      | .fragment => checkFragmentOutputs method) ++
    checkRepeatedSemantics method .input ++
    checkRepeatedSemantics method .output

/-- The rules for all methods that share their name with a shader method. -/
def checkMethods (decl : TypeDecl) (effect : Effect) : List Finding :=
  decl.methods.flatMap fun method =>
    match effect.method? method.name with
    | some shader => checkMethod method shader
    | none => []

/-! ## Usage -/

/-- Whether a field with the name has an initializer. -/
def isInitialized (decl : TypeDecl) (name : String) : Bool :=
  decl.fields.any fun field => field.name == name && field.initializer.isSome

/-- Remarks on constants with initializers and on methods without techniques. -/
def checkUsage (decl : TypeDecl) (effect : Effect) : List (Located Remark) :=
  let constants := effect.userBuffers.flatMap (·.constants)
  let unused := effect.methods.filter fun method =>
    !effect.techniques.any fun technique =>
      technique.vertex == method.name || technique.fragment == method.name
  (constants.filter fun constant => isInitialized decl constant.name).map (fun constant =>
      { location := constant.location, value := .ignoredInitializer constant.name }) ++
    unused.map fun method =>
      { location := method.location, value := .unusedMethod method.name }

end ShaderEffect
