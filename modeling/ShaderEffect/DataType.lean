import ShaderEffect.Name

/-!
# Shader data types

The closed set of types that a shader works with, what can be done with a value of each type, and
the host names that denote it.
-/

namespace ShaderEffect

/-- The type of a shader value. A host type without a shader equivalent is `unknown`, which never
converts to anything else. -/
inductive DataType where
  | unknown
  | bool
  | int
  | float
  | vector2
  | vector3
  | vector4
  | matrix
  | texture2D
  | textureCube
  deriving DecidableEq, Inhabited

namespace DataType

/-- All data types, in declaration order. -/
def all : List DataType :=
  [unknown, bool, int, float, vector2, vector3, vector4, matrix, texture2D, textureCube]

/-- The number of elements that an index can address: the components of a vector, the rows of a
matrix. -/
def indexBound : DataType → Option Nat
  | vector2 => some 2
  | vector3 => some 3
  | vector4 => some 4
  | matrix => some 4
  | _ => none

/-- The type of one indexed element. -/
def elementType : DataType → DataType
  | vector2 | vector3 | vector4 => float
  | matrix => vector4
  | _ => unknown

/-- The number of float components of a float or a vector. -/
def componentCount : DataType → Option Nat
  | float => some 1
  | vector2 => some 2
  | vector3 => some 3
  | vector4 => some 4
  | _ => none

/-- The float or vector type with the given number of components. -/
def ofComponentCount : Nat → DataType
  | 1 => float
  | 2 => vector2
  | 3 => vector3
  | 4 => vector4
  | _ => unknown

def isVector : DataType → Bool
  | vector2 | vector3 | vector4 => true
  | _ => false

def isMatrix : DataType → Bool
  | matrix => true
  | _ => false

def isTexture : DataType → Bool
  | texture2D | textureCube => true
  | _ => false

def isScalar : DataType → Bool
  | bool | int | float => true
  | _ => false

/-- Whether constants, literals and local variables can have this type. -/
def isValueType : DataType → Bool
  | unknown | texture2D | textureCube => false
  | _ => true

/-- Whether a stage input or output can have this type. -/
def isParameterType : DataType → Bool
  | float | vector2 | vector3 | vector4 => true
  | _ => false

/-- The unpadded size of a value in bytes. -/
def size : DataType → UInt32
  | bool | int | float => 4
  | vector2 => 8
  | vector3 => 12
  | vector4 => 16
  | matrix => 64
  | unknown | texture2D | textureCube => 0

/-- The canonical host name, as written in messages. -/
def hostName : DataType → String
  | unknown => "<unknown>"
  | bool => "bool"
  | int => "int"
  | float => "float"
  | vector2 => "Vector2"
  | vector3 => "Vector3"
  | vector4 => "Vector4"
  | matrix => "Matrix"
  | texture2D => "Texture2D"
  | textureCube => "TextureCube"

/-- The type that an unqualified host name denotes. -/
def ofShortName : String → DataType
  | "bool" | "Boolean" => bool
  | "int" | "Int32" => int
  | "float" | "Single" => float
  | "Vector2" => vector2
  | "Vector3" => vector3
  | "Vector4" => vector4
  | "Matrix" | "Matrix4x4" => matrix
  | "Texture2D" => texture2D
  | "TextureCube" => textureCube
  | _ => unknown

/-- The type that a host name denotes. Only the part after the last dot counts. -/
def ofHostName (name : String) : DataType :=
  ofShortName (unqualified name)

/-- The name of the type in the interchange format. -/
def tag : DataType → String
  | unknown => "Unknown"
  | bool => "Bool"
  | int => "Int"
  | float => "Float"
  | vector2 => "Vector2"
  | vector3 => "Vector3"
  | vector4 => "Vector4"
  | matrix => "Matrix"
  | texture2D => "Texture2D"
  | textureCube => "TextureCube"

end DataType

end ShaderEffect
