import ShaderEffect.Tree.Basic

/-!
# Declarations

Source files, the types they declare, and the members, parameters and attributes of those types.
-/

namespace ShaderEffect

/-- The modifiers of a declaration. -/
inductive Modifier where
  | publicAccess
  | privateAccess
  | protectedAccess
  | internalAccess
  | staticMember
  | constant
  | readOnly
  | abstractMember
  | sealedMember
  | partialType
  | unsafeCode
  | virtualMember
  | overriding
  | externalCode
  | hidingBase
  deriving DecidableEq

namespace Modifier

def all : List Modifier :=
  [publicAccess, privateAccess, protectedAccess, internalAccess, staticMember, constant, readOnly,
    abstractMember, sealedMember, partialType, unsafeCode, virtualMember, overriding, externalCode,
    hidingBase]

/-- The keyword of the host language. -/
def keyword : Modifier → String
  | publicAccess => "public"
  | privateAccess => "private"
  | protectedAccess => "protected"
  | internalAccess => "internal"
  | staticMember => "static"
  | constant => "const"
  | readOnly => "readonly"
  | abstractMember => "abstract"
  | sealedMember => "sealed"
  | partialType => "partial"
  | unsafeCode => "unsafe"
  | virtualMember => "virtual"
  | overriding => "override"
  | externalCode => "extern"
  | hidingBase => "new"

/-- The name in the interchange format. -/
def tag : Modifier → String
  | publicAccess => "Public"
  | privateAccess => "Private"
  | protectedAccess => "Protected"
  | internalAccess => "Internal"
  | staticMember => "Static"
  | constant => "Const"
  | readOnly => "Readonly"
  | abstractMember => "Abstract"
  | sealedMember => "Sealed"
  | partialType => "Partial"
  | unsafeCode => "Unsafe"
  | virtualMember => "Virtual"
  | overriding => "Override"
  | externalCode => "Extern"
  | hidingBase => "New"

end Modifier

/-- An argument of an attribute as written. -/
structure AttributeArgument where
  name : Option String := none
  value : Expr

/-- An attribute of a declaration as written. -/
structure Attribute where
  name : String
  arguments : List AttributeArgument := []
  location : Location := {}

/-- The kinds of members that an effect cannot have. -/
inductive MemberKind where
  | property
  | event
  | indexer
  | operator
  | constructor
  | nestedType
  deriving DecidableEq

namespace MemberKind

def all : List MemberKind := [property, event, indexer, operator, constructor, nestedType]

/-- The kind as written in messages. -/
def describe : MemberKind → String
  | property => "property"
  | event => "event"
  | indexer => "indexer"
  | operator => "operator"
  | constructor => "constructor"
  | nestedType => "nested type"

/-- The name in the interchange format. -/
def tag : MemberKind → String
  | property => "Property"
  | event => "Event"
  | indexer => "Indexer"
  | operator => "Operator"
  | constructor => "Constructor"
  | nestedType => "NestedType"

end MemberKind

/-- A member that matters only as something to reject. -/
structure OtherMember where
  kind : MemberKind
  name : String
  location : Location := {}

/-- A field of a type. -/
structure FieldDecl where
  name : String := ""
  type : TypeRef := .inferred
  modifiers : List Modifier := []
  attributes : List Attribute := []
  initializer : Option Expr := none
  documentation : List String := []
  location : Location := {}

/-- A parameter of a method. -/
structure ParamDecl where
  name : String
  type : TypeRef
  mode : PassMode := .byValue
  attributes : List Attribute := []
  location : Location := {}

/-- A method of a type. A method without a body has none, not an empty one. -/
structure MethodDecl where
  name : String := ""
  modifiers : List Modifier := []
  attributes : List Attribute := []
  typeParameters : List String := []
  parameters : List ParamDecl := []
  returnType : TypeRef := .named "void"
  body : Option (List Stmt) := none
  documentation : List String := []
  location : Location := {}

/-- A member of a type. -/
inductive Member where
  | field (field : FieldDecl)
  | method (method : MethodDecl)
  | other (member : OtherMember)

/-- A class or struct. -/
structure TypeDecl where
  name : String := ""
  enclosingNamespace : Option String := none
  documentation : List String := []
  modifiers : List Modifier := []
  baseTypes : List TypeRef := []
  attributes : List Attribute := []
  typeParameters : List String := []
  members : List Member := []
  location : Location := {}

namespace TypeDecl

/-- The fields in declaration order. -/
def fields (decl : TypeDecl) : List FieldDecl :=
  decl.members.filterMap fun
    | .field field => some field
    | _ => none

/-- The methods in declaration order. -/
def methods (decl : TypeDecl) : List MethodDecl :=
  decl.members.filterMap fun
    | .method method => some method
    | _ => none

/-- The members of other kinds in declaration order. -/
def otherMembers (decl : TypeDecl) : List OtherMember :=
  decl.members.filterMap fun
    | .other member => some member
    | _ => none

end TypeDecl

/-- A parsed and resolved source file. -/
structure SourceFile where
  path : String := ""
  types : List TypeDecl := []

end ShaderEffect
