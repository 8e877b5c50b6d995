import ShaderEffect.Effect.Build
import ShaderEffect.Intrinsic.Signature

/-!
# Names and types in shader bodies

What an identifier in a shader body refers to, and the shader type of every expression. The local
variables of a method are one flat list: a name refers to one thing in a whole method, because
validation rejects shadowing.
-/

namespace ShaderEffect

/-! ## Members of shader types -/

/-- The position of a vector component. -/
def componentIndex? : Char → Option Nat
  | 'X' => some 0
  | 'Y' => some 1
  | 'Z' => some 2
  | 'W' => some 3
  | _ => none

/-- A component of a vector with `count` components, in lower case. -/
def swizzleChar? (count : Nat) (c : Char) : Option Char := do
  let index ← componentIndex? c
  if index < count then some c.toLower else none

/-- The lower-case swizzle that a member of a vector type spells. -/
def swizzle? (member : String) (type : DataType) : Option String :=
  if type.isVector then do
    let count ← type.componentCount
    if member.isEmpty || 4 < member.utf8ByteSize then none
    else
      let chars ← member.toList.mapM (swizzleChar? count)
      return String.ofList chars
  else none

/-- The components of a unit vector. -/
def unitVector? (count axis : Nat) : Option (List Float) :=
  if axis < count then
    some ((List.range count).map fun i => if i = axis then 1.0 else 0.0)
  else none

/-- The components of a static property such as `Vector3.UnitY` or `Matrix.Identity`. -/
def staticProperty? (type : DataType) (member : String) : Option (List Float) :=
  if type.isMatrix then
    if member = "Identity" then
      some ((List.range 16).map fun i => if i % 5 = 0 then 1.0 else 0.0)
    else none
  else if type.isVector then do
    let count ← type.componentCount
    match member with
    | "Zero" => some (List.replicate count 0.0)
    | "One" => some (List.replicate count 1.0)
    | "UnitX" => unitVector? count 0
    | "UnitY" => unitVector? count 1
    | "UnitZ" => unitVector? count 2
    | "UnitW" => unitVector? count 3
    | _ => none
  else none

/-- The type of a binary operation. -/
def BinaryOp.resultType (op : BinaryOp) (lhs rhs : DataType) : DataType :=
  if op.isComparison || op.isLogical then .bool
  else
    match op, lhs, rhs with
    | .mul, .matrix, .matrix => .matrix
    | .mul, .matrix, .vector4 => .vector4
    | .mul, .vector4, .matrix => .vector4
    | _, lhs, rhs =>
      if lhs.isVector || lhs.isMatrix then lhs
      else if rhs.isVector || rhs.isMatrix then rhs
      else if lhs = .float || rhs = .float then .float
      else lhs

/-- The shader type of a literal. -/
def Value.dataType : Value → DataType
  | bool _ => .bool
  | int _ => .int
  | float _ => .float
  | string _ => .unknown

/-! ## Scopes -/

/-- Local variables, the one declared last first. -/
abbrev Locals := List (String × DataType)

/-- The type of the local variable with a name. -/
def Locals.type? (locals : Locals) (name : String) : Option DataType :=
  List.lookup name locals

/-- What an identifier refers to. -/
inductive Binding where
  | localVariable (type : DataType)
  | parameter (declared : ShaderParameter)
  | constant (buffer : ConstantBuffer) (declared : ShaderConstant)
  | literal (declared : ShaderLiteral)
  | texture (declared : ShaderTexture)

/-- The type of what an identifier refers to. An array has none. -/
def Binding.type : Binding → DataType
  | .localVariable type => type
  | .parameter declared => declared.type
  | .constant _ declared => declared.type
  | .literal declared => if declared.isArray then .unknown else declared.type
  | .texture declared => declared.type

/-- The names that are visible at a point of a shader body. -/
structure Scope where
  effect : Effect
  method : ShaderMethod
  locals : Locals := []

/-- A resolved invocation of a member method. -/
structure Call where
  method : MethodRef
  /-- The receiver of an instance method. -/
  receiver : Option Expr
  arguments : List Argument

def Call.intrinsic (call : Call) : Intrinsic :=
  call.method.intrinsic

/-- The method that an invocation is taken to call when the tree does not say: a static method of a
named type, or a method of the receiver's type. -/
def inferredMethod (typeName : Option String) (receiver : DataType) (member : String)
    (arguments : List DataType) : MethodRef :=
  { declaringType := typeName.getD receiver.hostName
    name := member
    parameterTypes := arguments.map DataType.hostName
    isStatic := typeName.isSome }

/-- The shader type that follows from annotations alone. -/
def Expr.annotatedDataType? (e : Expr) : Option DataType :=
  match e.resolvedType? with
  | some type => if type.dataType = .unknown then none else some type.dataType
  | none => none

/-- The method that an invocation is annotated to call, or that its annotations determine. -/
def Expr.annotatedMethod? (e : Expr) : Option MethodRef :=
  match e.resolvedSymbol? with
  | some (.method method) => some method
  | _ => none

namespace Scope

/-- The scope after the declaration of a local variable. -/
def declare (scope : Scope) (name : String) (type : DataType) : Scope :=
  { scope with locals := (name, type) :: scope.locals }

/-- What a name refers to: a local variable, else a parameter, a constant, a literal or a texture. -/
def lookup? (scope : Scope) (name : String) : Option Binding :=
  match scope.locals.type? name with
  | some type => some (.localVariable type)
  | none =>
    match scope.method.parameter? name with
    | some parameter => some (.parameter parameter)
    | none =>
      match scope.effect.constant? name with
      | some (buffer, constant) => some (.constant buffer constant)
      | none =>
        match scope.effect.literal? name with
        | some literal => some (.literal literal)
        | none => (scope.effect.texture? name).map .texture

/-- The array literal that an expression names. -/
def arrayLiteral? (scope : Scope) (e : Expr) : Option ShaderLiteral :=
  match e.unparenthesized.kind with
  | .identifier name =>
    match scope.lookup? name with
    | some (.literal literal) => if literal.isArray then some literal else none
    | _ => none
  | _ => none

/-- The texture that an expression names. -/
def texture? (scope : Scope) (e : Expr) : Option ShaderTexture :=
  match e.unparenthesized.kind with
  | .identifier name =>
    match scope.lookup? name with
    | some (.texture texture) => some texture
    | _ => none
  | _ => none

/-- The type that an expression names as the receiver of a static member: an annotated type, or an
identifier that is bound to nothing and is the name of a known type. -/
def staticReceiver? (scope : Scope) (e : Expr) : Option String :=
  match e.annotatedTypeName? with
  | some name => some name
  | none =>
    match e.kind with
    | .identifier name =>
      if (scope.lookup? name).isNone && isKnownType name then some name else none
    | _ => none

mutual

/-- The shader type of an expression. -/
def typeOf (scope : Scope) (e : Expr) : DataType :=
  match e.annotatedDataType? with
  | some type => type
  | none =>
    match e with
    | ⟨.literal value, _, _⟩ => value.dataType
    | ⟨.identifier name, _, _⟩ =>
      match scope.lookup? name with
      | some binding => binding.type
      | none => .unknown
    | ⟨.memberAccess target member, _, _⟩ =>
      match scope.staticReceiver? target with
      | some receiver =>
        let type := DataType.ofHostName receiver
        if (staticProperty? type member).isSome then type else .unknown
      | none =>
        match swizzle? member (scope.typeOf target) with
        | some components => DataType.ofComponentCount components.length
        | none => .unknown
    | ⟨.index target _, _, _⟩ =>
      match scope.arrayLiteral? target with
      | some literal => literal.type
      | none => (scope.typeOf target).elementType
    | ⟨.invocation callee arguments, _, _⟩ =>
      match scope.calleeType? callee with
      | none => .unknown
      | some (typeName, receiver, member) =>
        let argumentTypes := scope.argumentTypes arguments
        let method := e.annotatedMethod?.getD (inferredMethod typeName receiver member argumentTypes)
        method.intrinsic.returnType
          (if method.isStatic then argumentTypes else receiver :: argumentTypes)
    | ⟨.objectCreation type _ _, _, _⟩ => type.dataType
    | ⟨.cast type _, _, _⟩ => type.dataType
    | ⟨.binary op lhs rhs, _, _⟩ => op.resultType (scope.typeOf lhs) (scope.typeOf rhs)
    | ⟨.unary op operand, _, _⟩ => if op = .not then .bool else scope.typeOf operand
    | ⟨.assignment _ target _, _, _⟩ => scope.typeOf target
    | ⟨.conditional _ thenValue _, _, _⟩ => scope.typeOf thenValue
    | ⟨.parenthesized inner, _, _⟩ => scope.typeOf inner
    | _ => .unknown

/-- For a callee that is a member access: the type that its target names, the shader type of its
target, and its member. -/
def calleeType? (scope : Scope) (callee : Expr) : Option (Option String × DataType × String) :=
  match callee with
  | ⟨.memberAccess target member, _, _⟩ =>
    some (scope.staticReceiver? target, scope.typeOf target, member)
  | ⟨.parenthesized inner, _, _⟩ => scope.calleeType? inner
  | _ => none

/-- The shader types of arguments. -/
def argumentTypes (scope : Scope) (arguments : List Argument) : List DataType :=
  match arguments with
  | [] => []
  | ⟨_, _, value⟩ :: rest => scope.typeOf value :: scope.argumentTypes rest

end

/-- The resolved invocation of a member method. Annotations are asked first; without an answer the
method is inferred from the receiver and the arguments. -/
def call? (scope : Scope) (e : Expr) : Option Call :=
  match e.kind with
  | .invocation callee arguments =>
    match callee.unparenthesized.kind with
    | .memberAccess target member =>
      let method := e.annotatedMethod?.getD
        (inferredMethod (scope.staticReceiver? target) (scope.typeOf target) member
          (scope.argumentTypes arguments))
      some { method, receiver := if method.isStatic then none else some target, arguments }
    | _ => none
  | _ => none

end Scope

/-- The type of a declared local variable: of its initializer if it is implicitly typed. -/
def Scope.localType (scope : Scope) (declared : TypeRef) (initializer : Option Expr) : DataType :=
  match declared, initializer with
  | .inferred, some value => scope.typeOf value
  | type, _ => type.dataType

end ShaderEffect
