import ShaderEffect.DataType

/-!
# Shader stages

The two programmable stages, sets of stages, and the element formats of a vertex input layout.
-/

namespace ShaderEffect

/-- The stage that a shader method runs in. -/
inductive Stage where
  | vertex
  | fragment
  deriving DecidableEq

namespace Stage

def all : List Stage := [vertex, fragment]

/-- The attribute that tags a method as belonging to the stage. -/
def attributeName : Stage → String
  | vertex => "VertexShader"
  | fragment => "FragmentShader"

/-- The short suffix in asset file names. -/
def fileSuffix : Stage → String
  | vertex => "vs"
  | fragment => "fs"

/-- The name written in messages. -/
def describe : Stage → String
  | vertex => "vertex"
  | fragment => "fragment"

/-- The name in the interchange format. -/
def tag : Stage → String
  | vertex => "Vertex"
  | fragment => "Fragment"

end Stage

/-- A set of stages, such as those that refer to a constant buffer. -/
structure StageSet where
  vertex : Bool := false
  fragment : Bool := false
  deriving DecidableEq

namespace StageSet

def empty : StageSet := {}

def singleton : Stage → StageSet
  | .vertex => { vertex := true }
  | .fragment => { fragment := true }

def contains (stages : StageSet) : Stage → Bool
  | .vertex => stages.vertex
  | .fragment => stages.fragment

/-- The stages for which `p` holds. -/
def ofPredicate (p : Stage → Bool) : StageSet :=
  { vertex := p .vertex, fragment := p .fragment }

/-- The set as a bit mask: 1 for the vertex stage, 2 for the fragment stage. -/
def mask (stages : StageSet) : Nat :=
  (if stages.vertex then 1 else 0) + (if stages.fragment then 2 else 0)

@[simp] theorem contains_ofPredicate (p : Stage → Bool) (stage : Stage) :
    (ofPredicate p).contains stage = p stage := by
  cases stage <;> rfl

end StageSet

/-- The format of one element of a vertex input layout. -/
inductive ElementFormat where
  | single
  | vector2
  | vector3
  | vector4
  deriving DecidableEq

namespace ElementFormat

/-- All formats in the order of their packaged bytes. -/
def all : List ElementFormat := [single, vector2, vector3, vector4]

/-- The element format of a stage parameter type. -/
def ofDataType? : DataType → Option ElementFormat
  | .float => some single
  | .vector2 => some vector2
  | .vector3 => some vector3
  | .vector4 => some vector4
  | _ => none

def dataType : ElementFormat → DataType
  | single => .float
  | vector2 => .vector2
  | vector3 => .vector3
  | vector4 => .vector4

/-- The byte that stands for the format in a packaged vertex input layout. -/
def toByte : ElementFormat → UInt8
  | single => 0
  | vector2 => 1
  | vector3 => 2
  | vector4 => 3

/-- The format that a packaged byte stands for. -/
def ofByte? (byte : UInt8) : Option ElementFormat :=
  all.find? (·.toByte == byte)

/-- The name in the interchange format. -/
def tag : ElementFormat → String
  | single => "Single"
  | vector2 => "Vector2"
  | vector3 => "Vector3"
  | vector4 => "Vector4"

end ElementFormat

end ShaderEffect
