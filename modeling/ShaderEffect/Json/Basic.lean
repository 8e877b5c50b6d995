/-!
# JSON values

Data in the interchange format. Whole numbers and other numbers are kept apart, because a field of
the format that holds an integer does not accept `1.0`. An object keeps the order of its members.
-/

namespace ShaderEffect

/-- A JSON value. -/
inductive Json where
  | null
  | bool (value : Bool)
  | int (value : Int)
  | float (value : Float)
  | string (value : String)
  | array (items : List Json)
  | object (members : List (String × Json))

namespace Json

/-- The first member with a key. -/
def lookup? (members : List (String × Json)) (key : String) : Option Json :=
  match members with
  | [] => none
  | (k, value) :: rest => if k = key then some value else lookup? rest key

/-- The member of an object; other values have none. -/
def get? : Json → String → Option Json
  | object members, key => lookup? members key
  | _, _ => none

mutual

/-- The number of arrays and objects around the innermost value. -/
def depth : Json → Nat
  | array items => depthOfItems items + 1
  | object members => depthOfMembers members + 1
  | _ => 0

/-- The greatest depth of the items of an array. -/
def depthOfItems : List Json → Nat
  | [] => 0
  | item :: rest => Nat.max item.depth (depthOfItems rest)

/-- The greatest depth of the members of an object. -/
def depthOfMembers : List (String × Json) → Nat
  | [] => 0
  | (_, value) :: rest => Nat.max value.depth (depthOfMembers rest)

end

end Json

end ShaderEffect
