import ShaderEffect.Name
import ShaderEffect.Tree.Constant
import ShaderEffect.Tree.Declaration

/-!
# Resolution

Types, symbols and attributes that follow from the annotations of a tree. Where an annotation is
missing, the tree fills it in if it is enough: the types of literals, constructions and casts, and
the methods that are invoked on typed receivers with typed arguments.
-/

namespace ShaderEffect

/-- The host type of a literal. -/
def Value.hostType : Value → TypeRef
  | bool _ => .named "bool"
  | int _ => .named "int"
  | float _ => .named "float"
  | string _ => .named "string"

namespace Expr

/-- The host type of an expression, if it is annotated or evident. -/
def resolvedType? (e : Expr) : Option TypeRef :=
  match e.notes.type with
  | some type => some type
  | none =>
    match e with
    | ⟨.literal value, _, _⟩ => some value.hostType
    | ⟨.parenthesized inner, _, _⟩ => inner.resolvedType?
    | ⟨.objectCreation type _ _, _, _⟩ => some type
    | ⟨.cast type _, _, _⟩ => some type
    | _ => none

/-- The type name that an expression was annotated to stand for. -/
def annotatedTypeName? (e : Expr) : Option String :=
  match e.notes.symbol with
  | some (.typeName name) => some name
  | _ => none

/-- The method that an invocation calls, if its receiver and all its arguments have host types. -/
def inferredMethod? (callee : Expr) (arguments : List Argument) : Option MethodRef :=
  match callee.unparenthesized.kind with
  | .memberAccess target member => do
    let (declaringType, isStatic) ←
      match target.annotatedTypeName? with
      | some name => some (name, true)
      | none => target.resolvedType?.map fun type => (type.describe, false)
    let parameterTypes ← arguments.mapM fun argument =>
      argument.value.resolvedType?.map TypeRef.describe
    some { declaringType, name := member, parameterTypes, isStatic }
  | _ => none

/-- The symbol that an expression refers to. For an invocation it is the invoked method. -/
def resolvedSymbol? (e : Expr) : Option Symbol :=
  match e.notes.symbol with
  | some symbol => some symbol
  | none =>
    match e.kind with
    | .invocation callee arguments => (inferredMethod? callee arguments).map .method
    | _ => none

def isConstant (e : Expr) : Bool :=
  e.constant?.isSome

end Expr

/-- An attribute argument with its constant value, if it has one. -/
structure ResolvedArgument where
  name : Option String
  value : Option Value

/-- An attribute with its canonical name and constant arguments. -/
structure ResolvedAttribute where
  name : String
  arguments : List ResolvedArgument
  location : Location

/-- The canonical name of an attribute: without qualification, and without the suffix `Attribute`
unless that is all of it. -/
def canonicalAttributeName (name : String) : String :=
  let short := unqualified name
  let suffix := "Attribute".toList
  let chars := short.toList
  if suffix.isSuffixOf chars && suffix.length < chars.length then
    String.ofList (chars.take (chars.length - suffix.length))
  else short

def AttributeArgument.resolve (argument : AttributeArgument) : ResolvedArgument :=
  { name := argument.name, value := argument.value.constant? }

def Attribute.resolve (attr : Attribute) : ResolvedAttribute :=
  { name := canonicalAttributeName attr.name
    arguments := attr.arguments.map AttributeArgument.resolve
    location := attr.location }

namespace ResolvedAttribute

/-- The positional argument at an index; named arguments are not counted. -/
def positional? (attr : ResolvedAttribute) (index : Nat) : Option ResolvedArgument :=
  (attr.arguments.filter (·.name.isNone))[index]?

/-- The first argument with a name. -/
def named? (attr : ResolvedAttribute) (name : String) : Option ResolvedArgument :=
  attr.arguments.find? (·.name == some name)

end ResolvedAttribute

/-- The first attribute with a canonical name. -/
def findAttribute? (attributes : List Attribute) (name : String) : Option ResolvedAttribute :=
  (attributes.map Attribute.resolve).find? (·.name == name)

/-- Whether a declaration carries an attribute with a canonical name. -/
def hasAttribute (attributes : List Attribute) (name : String) : Bool :=
  (findAttribute? attributes name).isSome

end ShaderEffect
