import ShaderEffect.DataType

/-!
# Constant buffer layouts

Where the members of a constant buffer are placed. Both shading languages work with registers of 16
bytes but differ in when a member starts a new one.
-/

namespace ShaderEffect

/-- The packing rules of a shading language. -/
inductive Packing where
  /-- A member does not cross the end of a register, and a matrix starts a new one. -/
  | hlsl
  /-- A member starts at a multiple of its alignment. -/
  | std140
  deriving DecidableEq

/-- The next multiple of 16. -/
def alignToRegister (size : UInt32) : UInt32 :=
  (size + 15) &&& ~~~15

namespace Packing

/-- The alignment of a member in the standard uniform block layout. -/
def std140Alignment : DataType → UInt32
  | .vector2 => 8
  | .vector3 | .vector4 | .matrix => 16
  | _ => 4

/-- The offset of a member of a type that follows `offset` bytes of other members. -/
def place (packing : Packing) (offset : UInt32) (type : DataType) : UInt32 :=
  match packing with
  | hlsl =>
    if type.isMatrix || offset % 16 + type.size > 16 then alignToRegister offset else offset
  | std140 =>
    let alignment := std140Alignment type
    (offset + alignment - 1) / alignment * alignment

end Packing

/-- A placed member. -/
structure MemberLayout where
  name : String
  type : DataType
  offset : UInt32
  size : UInt32
  deriving DecidableEq

/-- The placed members of a buffer and its size, a multiple of 16. -/
structure BufferLayout where
  members : List MemberLayout
  size : UInt32
  deriving DecidableEq

/-- Places members one after the other from an offset on; also gives the end of the last one. -/
def Packing.placeAll (packing : Packing) (offset : UInt32) :
    List (String × DataType) → List MemberLayout × UInt32
  | [] => ([], offset)
  | (name, type) :: rest =>
    let start := packing.place offset type
    let (members, stop) := packing.placeAll (start + type.size) rest
    ({ name, type, offset := start, size := type.size } :: members, stop)

/-- The layout of a buffer with the given members. -/
def Packing.layout (packing : Packing) (members : List (String × DataType)) : BufferLayout :=
  let (placed, stop) := packing.placeAll 0 members
  { members := placed, size := alignToRegister stop }

end ShaderEffect
