import ShaderEffect.Effect.Basic

/-!
# Structural faults

What can be wrong with the structure of an effect, so that no model of it can be built.
-/

namespace ShaderEffect

/-- A structural fault of an effect declaration. -/
inductive BuildFault where
  | bothStages (method : String)
  | repeatedMethod (method : String)
  | missingBody (method : String)
  | arrayParameter (parameter method : String)
  | parameterType (parameter method : String) (type : TypeRef)
  | semanticsCount (parameter method : String)
  | semanticsIndexKind (parameter : String)
  | semanticsIndexRange (attributeName : String) (index : Int64) (parameter : String)
  | bufferNameKind (constant : String)
  | constantType (constant : String) (type : TypeRef)
  | techniqueForm (technique : String)
  | techniqueUnknownMethod (technique method : String)
  | techniqueStage (technique : String) (expected : Stage) (method : String) (actual : Stage)
  | missingStage (effect : String) (stage : Stage)
  | missingTechnique (effect : String)

/-- The wording of a structural fault. -/
def BuildFault.message : BuildFault → String
  | bothStages method => s!"method '{method}' cannot be both a vertex and a fragment shader"
  | repeatedMethod method => s!"shader method '{method}' is declared more than once"
  | missingBody method => s!"shader method '{method}' has no body"
  | arrayParameter parameter method => s!"parameter '{parameter}' of '{method}' cannot be an array"
  | parameterType parameter method type =>
    s!"parameter '{parameter}' of '{method}' has unsupported type '{type.describe}', " ++
      "stage parameters must be float, Vector2, Vector3 or Vector4"
  | semanticsCount parameter method =>
    s!"parameter '{parameter}' of '{method}' must have exactly one semantics attribute"
  | semanticsIndexKind parameter =>
    s!"semantics index of parameter '{parameter}' must be a constant integer"
  | semanticsIndexRange attributeName index parameter =>
    let range :=
      if attributeName == "Position" || attributeName == "Normal" then ""
      else s!" to {Semantics.maxIndex}"
    s!"semantics {attributeName}({index.toInt}) of parameter '{parameter}' is out of range, " ++
      s!"the index must be 0{range}"
  | bufferNameKind constant => s!"buffer name of constant '{constant}' must be a constant string"
  | constantType constant type =>
    s!"constant '{constant}' has unsupported type '{type.describe}'"
  | techniqueForm technique =>
    s!"technique '{technique}' must be initialized with " ++
      "new Technique(vertexShader, fragmentShader)"
  | techniqueUnknownMethod technique method =>
    s!"technique '{technique}' references unknown shader method '{method}'"
  | techniqueStage technique expected method actual =>
    s!"technique '{technique}' expects a {expected.describe} shader " ++
      s!"but '{method}' is a {actual.describe} shader"
  | missingStage effect stage =>
    s!"effect '{effect}' must declare at least one {stage.describe} shader"
  | missingTechnique effect => s!"effect '{effect}' must declare at least one technique"

/-- Why there is no model of a declaration. -/
inductive BuildError where
  /-- The declaration neither derives from the effect base nor carries the effect attribute. -/
  | notAnEffect (name : String)
  /-- The declaration has structural faults. -/
  | structural (name : String) (count : Nat)
  deriving DecidableEq

/-- The wording of a build error. -/
def BuildError.message : BuildError → String
  | notAnEffect name => s!"'{name}' is not an effect declaration"
  | structural name count => s!"effect '{name}' has {count} structural error(s)"

end ShaderEffect
