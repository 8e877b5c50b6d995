import ShaderEffect.Json.Basic

/-!
# Decoding JSON

The shapes that typed data has in the interchange format. A structure is an object of its fields, or
an array of them in declaration order. A choice is an object whose only key names the alternative,
or just that name if there is nothing more to say. What no field asks for is not looked at.
-/

namespace ShaderEffect.Json

/-- A JSON value that data is read from, and how it may be written. -/
structure Input where
  json : Json
  /-- The most arrays and objects that may be opened one inside the other, if there is a limit. -/
  depth : Option Nat := none
  /-- Whether an alternative may have its fields in an array, as a structure may. -/
  positional : Bool := false

/-- A way to read data of a type. -/
abbrev Decoder (α : Type) := Input → Option α

/-- The data in a JSON value of any depth. -/
def decode? {α : Type} (decoder : Decoder α) (json : Json) : Option α :=
  decoder { json }

namespace Input

/-- The values inside an array or object, for which there is one level less. -/
def inside? (input : Input) : Option (Json → Input) :=
  match input.depth with
  | none => some fun json => { input with json }
  | some 0 => none
  | some (depth + 1) => some fun json => { input with json, depth := some depth }

/-! ## Scalars and lists -/

def string? (input : Input) : Option String :=
  match input.json with
  | string value => some value
  | _ => none

def bool? (input : Input) : Option Bool :=
  match input.json with
  | bool value => some value
  | _ => none

/-- An integer that fits in 64 bits with a sign. -/
def int64? (input : Input) : Option Int64 :=
  match input.json with
  | int value =>
    if -0x8000000000000000 ≤ value ∧ value < 0x8000000000000000 then some (Int64.ofInt value)
    else none
  | _ => none

/-- A natural number below a bound. -/
def natBelow? (bound : Nat) (input : Input) : Option Nat :=
  match input.json with
  | int value => if 0 ≤ value ∧ value < bound then some value.toNat else none
  | _ => none

def uint32? (input : Input) : Option UInt32 :=
  (natBelow? UInt32.size input).map UInt32.ofNat

def uint8? (input : Input) : Option UInt8 :=
  (natBelow? UInt8.size input).map UInt8.ofNat

/-- A number; whole numbers are rounded to the nearest float. -/
def float? (input : Input) : Option Float :=
  match input.json with
  | float value => some value
  | int value => some (Float.ofInt value)
  | _ => none

/-- An array of items of one kind. -/
def list? {α : Type} (decoder : Decoder α) (input : Input) : Option (List α) :=
  match input.json with
  | array items => do
    let inside ← input.inside?
    items.mapM fun item => decoder (inside item)
  | _ => none

/-- A value that may be null. -/
def option? {α : Type} (decoder : Decoder α) (input : Input) : Option (Option α) :=
  match input.json with
  | null => some none
  | _ => (decoder input).map some

/-- An array of exactly two values. -/
def pair? {α β : Type} (first : Decoder α) (second : Decoder β) (input : Input) :
    Option (α × β) :=
  match input.json with
  | array [a, b] => do
    let inside ← input.inside?
    return (← first (inside a), ← second (inside b))
  | _ => none

/-! ## Structures -/

/-- The fields of a structure by their keys, and whether they were given by position. -/
structure Record where
  members : List (String × Json)
  byPosition : Bool
  /-- The value of a field as input. -/
  inside : Json → Input

/-- The fields of a structure with the given keys. -/
def record? (keys : List String) (input : Input) : Option Record :=
  match input.json with
  | object members => do
    return { members, byPosition := false, inside := ← input.inside? }
  | array items =>
    if items.length ≤ keys.length then do
      return { members := keys.zip items, byPosition := true, inside := ← input.inside? }
    else none
  | _ => none

namespace Record

/-- A field that has to be there. -/
def required {α : Type} (record : Record) (key : String) (decoder : Decoder α) : Option α :=
  (lookup? record.members key).bind fun json => decoder (record.inside json)

/-- A field that may be null, or be missing from an object. -/
def optional {α : Type} (record : Record) (key : String) (decoder : Decoder α) :
    Option (Option α) :=
  match lookup? record.members key with
  | some json => option? decoder (record.inside json)
  | none => if record.byPosition then none else some none

/-- A field with a default for when it is missing. -/
def defaulted {α : Type} (record : Record) (key : String) (default : α) (decoder : Decoder α) :
    Option α :=
  match lookup? record.members key with
  | some json => decoder (record.inside json)
  | none => some default

end Record

/-! ## Choices -/

/-- The name of an alternative and what is given with it. -/
def variant? (input : Input) : Option (String × Option Input) :=
  match input.json with
  | string name => some (name, none)
  | object [(name, content)] => do
    let inside ← input.inside?
    return (name, some (inside content))
  | _ => none

/-- The fields of an alternative with the given keys. -/
def fields? (keys : List String) (input : Input) : Option Record :=
  match input.json with
  | array _ => if input.positional then record? keys input else none
  | _ => record? keys input

/-- Whether nothing is given with an alternative. -/
def isBare (content : Option Input) : Bool :=
  match content.map Input.json with
  | none | some null => true
  | _ => false

/-- An alternative out of a list, by its name and with nothing more. -/
def oneOf? {α : Type} (all : List α) (tag : α → String) (input : Input) : Option α := do
  let (name, content) ← variant? input
  if isBare content then all.find? (tag · == name) else none

end Input

/-! ## Encoding -/

def ofOption {α : Type} (encode : α → Json) : Option α → Json
  | none => null
  | some value => encode value

def ofList {α : Type} (encode : α → Json) (values : List α) : Json :=
  array (values.map encode)

def ofNat (n : Nat) : Json :=
  int n

/-- An alternative with its content. -/
def ofVariant (name : String) (content : Json) : Json :=
  object [(name, content)]

end ShaderEffect.Json
