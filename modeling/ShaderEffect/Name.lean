/-!
# Names

Dotted host names and the names reserved for generated identifiers.
-/

namespace ShaderEffect

/-- The part of a dotted name after its last dot; a name without a dot is its own last part. -/
def unqualified (name : String) : String :=
  String.ofList (name.toList.reverse.takeWhile (· != '.')).reverse

/-- Every identifier that a generated shader introduces itself starts with this text. -/
def reservedStart : String := "fx_"

/-- Whether a declared name could be taken for a generated identifier. -/
def isReserved (name : String) : Bool :=
  reservedStart.toList.isPrefixOf name.toList

/-- Letters, digits and underscores, not starting with a digit; ASCII only, because shader
identifiers are. -/
def isIdentifier (name : String) : Bool :=
  match name.toList with
  | [] => false
  | c :: rest => (c.isAlpha || c == '_') && rest.all fun d => d.isAlphanum || d == '_'

end ShaderEffect
