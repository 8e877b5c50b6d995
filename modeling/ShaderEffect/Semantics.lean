/-!
# Stage parameter semantics

What a stage input or output means, the attributes that declare it, its packaged byte and its
spelling in both shading languages.
-/

namespace ShaderEffect

/-- The meaning of a stage input or output. -/
inductive Semantics where
  | position
  | color (index : Fin 4)
  | normal
  | texCoord (index : Fin 4)
  deriving DecidableEq

namespace Semantics

/-- All semantics in the order of their packaged bytes. -/
def all : List Semantics :=
  [position, color 0, color 1, color 2, color 3, normal,
    texCoord 0, texCoord 1, texCoord 2, texCoord 3]

/-- The largest index that an indexed semantics attribute may carry. -/
def maxIndex : Nat := 3

/-- The attributes that declare a semantics. -/
def attributeNames : List String := ["Position", "Color", "Normal", "TexCoord"]

def isAttributeName (name : String) : Bool :=
  attributeNames.contains name

/-- The semantics of an attribute with an index. `Position` and `Normal` accept index 0 only. -/
def ofAttribute? (name : String) (index : Nat) : Option Semantics :=
  match name with
  | "Position" => if index = 0 then some position else none
  | "Normal" => if index = 0 then some normal else none
  | "Color" => if h : index < 4 then some (color ⟨index, h⟩) else none
  | "TexCoord" => if h : index < 4 then some (texCoord ⟨index, h⟩) else none
  | _ => none

/-- The byte that stands for the semantics in a packaged vertex input layout. -/
def toByte : Semantics → UInt8
  | position => 0
  | color i => 1 + UInt8.ofNat i
  | normal => 5
  | texCoord i => 6 + UInt8.ofNat i

/-- The semantics that a packaged byte stands for. -/
def ofByte? (byte : UInt8) : Option Semantics :=
  all.find? (·.toByte == byte)

def isColor : Semantics → Bool
  | color _ => true
  | _ => false

/-- The index of an indexed semantics, 0 for the others. -/
def index : Semantics → Nat
  | position | normal => 0
  | color i | texCoord i => i

/-- The name written in messages and in the interchange format. -/
def tag : Semantics → String
  | position => "Position"
  | color i => "Color" ++ toString i.val
  | normal => "Normal"
  | texCoord i => "TexCoord" ++ toString i.val

/-- The plain HLSL semantic. The system values are chosen by stage and direction. -/
def hlslName : Semantics → String
  | position => "POSITION"
  | color i => "COLOR" ++ toString i.val
  | normal => "NORMAL"
  | texCoord i => "TEXCOORD" ++ toString i.val

/-- The end of the name of a GLSL interface variable with this semantics. -/
def glslName : Semantics → String
  | position => "position"
  | color i => "color" ++ toString i.val
  | normal => "normal"
  | texCoord i => "texcoord" ++ toString i.val

end Semantics

end ShaderEffect
