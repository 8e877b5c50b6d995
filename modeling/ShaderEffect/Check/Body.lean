import ShaderEffect.Check.Violation
import ShaderEffect.Scope

/-!
# Checking shader bodies

The rules for the statements and expressions of a shader method. The whole body is checked, and all
violations are found in the order in which they are written.
-/

namespace ShaderEffect

/-- The number of float components that a constructor argument contributes. -/
def constructorComponents? : DataType → Option Nat
  | .int => some 1
  | type => type.componentCount

/-- The number of components of a type that can be constructed. -/
def DataType.constructedComponents? : DataType → Option Nat
  | .matrix => some 16
  | .vector2 => some 2
  | .vector3 => some 3
  | .vector4 => some 4
  | _ => none

namespace Scope

/-! ## Rules for single nodes -/

/-- A member of a value has to be a swizzle of a vector. -/
def checkMember (scope : Scope) (target : Expr) (member : String) (location : Location) :
    List Finding :=
  match scope.arrayLiteral? target with
  | some literal => [{ location, value := .arrayMember member literal.name }]
  | none =>
    let type := scope.typeOf target
    if (swizzle? member type).isSome then []
    else [{ location, value := .unknownMember member type }]

/-- A static member has to be a property with known components. -/
def checkStaticMember (receiver member : String) (location : Location) : List Finding :=
  if (staticProperty? (DataType.ofHostName receiver) member).isSome then []
  else [{ location, value := .staticMember receiver member }]

/-- A constant index has to be in range. -/
def checkBounds (scope : Scope) (target index : Expr) (location : Location) : List Finding :=
  match index.constant?.bind Value.int? with
  | none => []
  | some value =>
    if value.toInt < 0 then [{ location, value := .negativeIndex value }]
    else
      match scope.arrayLiteral? target with
      | some literal =>
        let length := literal.length?.getD 0
        if length ≤ value.toInt.toNat then
          [{ location, value := .arrayIndex value literal.name length }]
        else []
      | none =>
        let type := scope.typeOf target
        match type.indexBound with
        | some bound =>
          if bound ≤ value.toInt.toNat then
            [{ location, value := .componentIndex value type bound }]
          else []
        | none => []

/-- A call has to be of an intrinsic that exists in the stage, and sampling needs a texture. -/
def checkCall (scope : Scope) (call : Call) (location : Location) : List Finding :=
  let called := call.method.describe
  if call.intrinsic = .unknown then [{ location, value := .unknownMethod called }]
  else if call.intrinsic = .sampleTexture &&
      call.receiver.any fun receiver => (scope.texture? receiver).isNone then
    [{ location, value := .sampleReceiver called }]
  else if call.intrinsic.isFragmentOnly && scope.method.stage = .vertex then
    [{ location, value := .fragmentOnly called scope.method.name }]
  else []

/-- A construction has to be of a vector or a matrix, with as many components as that has, none, or
one for all components of a vector. Arguments of other types are not counted. -/
def checkConstruction (scope : Scope) (type : TypeRef) (arguments : List Argument)
    (location : Location) : List Finding :=
  let data := type.dataType
  match data.constructedComponents? with
  | none => [{ location, value := .construction type }]
  | some expected =>
    match (scope.argumentTypes arguments).mapM constructorComponents? with
    | none => []
    | some components =>
      let total := components.foldl (· + ·) 0
      let splat := data.isVector && components == [1]
      if components.isEmpty || splat || total = expected then []
      else [{ location, value := .componentCount data expected total }]

/-- Only local variables and outputs can be assigned to. -/
def checkAssignable (scope : Scope) (target : Expr) : List Finding :=
  match target.rootIdentifier? with
  | none => []
  | some root =>
    match scope.lookup? root with
    | some (.constant _ _) => [{ location := target.location, value := .assignedConstant root }]
    | some (.literal _) => [{ location := target.location, value := .assignedLiteral root }]
    | some (.texture _) => [{ location := target.location, value := .assignedTexture root }]
    | some (.parameter parameter) =>
      if parameter.direction = .input then
        [{ location := target.location, value := .assignedInput root scope.method.name }]
      else []
    | _ => []

/-- An identifier has to be bound, or to name a type with members for shaders. -/
def checkIdentifier (scope : Scope) (name : String) (location : Location) : List Finding :=
  if (scope.lookup? name).isNone && !isKnownType name then
    [{ location, value := .inaccessible name scope.method.name }]
  else []

/-! ## Expressions -/

/-- The method name that a message about an invocation without a receiver gives. -/
def invokedName (callee : Expr) : String :=
  match callee.unparenthesized.kind with
  | .identifier name => name
  | _ => "<expression>"

mutual

/-- The violations in an expression. -/
def checkExpr (scope : Scope) (e : Expr) : List Finding :=
  match Construct.ofExpr? e.kind with
  | some construct => [{ location := e.location, value := .unsupported construct }]
  | none =>
    match e with
    | ⟨.identifier name, location, _⟩ => scope.checkIdentifier name location
    | ⟨.memberAccess target member, location, _⟩ =>
      match scope.staticReceiver? target with
      | some receiver => checkStaticMember receiver member location
      | none => scope.checkExpr target ++ scope.checkMember target member location
    | ⟨.index target index, location, _⟩ =>
      scope.checkExpr target ++ scope.checkExpr index ++ scope.checkBounds target index location
    | ⟨.invocation callee arguments, location, _⟩ =>
      scope.checkArguments arguments ++
        match scope.call? e with
        | none => [{ location, value := .unknownMethod (invokedName callee) }]
        | some call =>
          (if call.receiver.isSome then scope.checkReceiver callee else []) ++
            scope.checkCall call location
    | ⟨.objectCreation type arguments _, location, _⟩ =>
      scope.checkArguments arguments ++ scope.checkConstruction type arguments location
    | ⟨.binary _ lhs rhs, _, _⟩ => scope.checkExpr lhs ++ scope.checkExpr rhs
    | ⟨.unary op operand, _, _⟩ =>
      scope.checkExpr operand ++ if op.isMutating then scope.checkAssignable operand else []
    | ⟨.assignment _ target value, _, _⟩ =>
      scope.checkExpr target ++ scope.checkExpr value ++ scope.checkAssignable target
    | ⟨.conditional condition thenValue elseValue, _, _⟩ =>
      scope.checkExpr condition ++ scope.checkExpr thenValue ++ scope.checkExpr elseValue
    | ⟨.cast type operand, location, _⟩ =>
      (if type.dataType.isValueType then [] else [{ location, value := .castType type }]) ++
        scope.checkExpr operand
    | ⟨.parenthesized inner, _, _⟩ => scope.checkExpr inner
    | _ => []

/-- The violations in the receiver of a call, given the callee. -/
def checkReceiver (scope : Scope) (callee : Expr) : List Finding :=
  match callee with
  | ⟨.memberAccess target _, _, _⟩ => scope.checkExpr target
  | ⟨.parenthesized inner, _, _⟩ => scope.checkReceiver inner
  | _ => []

/-- The violations in arguments. They are passed by position and by value. -/
def checkArguments (scope : Scope) (arguments : List Argument) : List Finding :=
  match arguments with
  | [] => []
  | ⟨name, mode, value⟩ :: rest =>
    (match Construct.ofArgument? ⟨name, mode, value⟩ with
      | some construct => [{ location := value.location, value := .unsupported construct }]
      | none => []) ++
      scope.checkExpr value ++ scope.checkArguments rest

end

/-- The violations in an optional expression. -/
def checkOption (scope : Scope) : Option Expr → List Finding
  | none => []
  | some e => scope.checkExpr e

/-- The violations in a list of expressions. -/
def checkExprs (scope : Scope) (es : List Expr) : List Finding :=
  es.flatMap scope.checkExpr

end Scope

/-! ## Statements -/

/-- A local variable must not take a reserved name nor hide a member or a parameter. -/
def checkLocalName (members : List String) (method : ShaderMethod) (name : String)
    (location : Location) : List Finding :=
  (if isReserved name then [{ location, value := .reservedName name }] else []) ++
    if members.contains name then [{ location, value := .localShadowsMember name }]
    else if (method.parameter? name).isSome then
      [{ location, value := .localShadowsParameter name }]
    else []

/-- The violations in the declaration of one variable, and the scope after it. -/
def checkDeclarator (members : List String) (type : TypeRef) (location : Location) (scope : Scope)
    (declarator : VariableDeclarator) : Scope × List Finding :=
  let location := if declarator.location = {} then location else declarator.location
  let local_ := scope.localType type declarator.initializer
  let spelled := if type = .inferred then local_.hostName else type.describe
  (scope.declare declarator.name local_,
    scope.checkOption declarator.initializer ++
      (if local_.isValueType then []
        else [{ location, value := .localType declarator.name spelled }]) ++
      checkLocalName members scope.method declarator.name location)

/-- The violations in the variables of a declaration, and the scope after them. -/
def checkDeclarators (members : List String) (type : TypeRef) (location : Location)
    (scope : Scope) : List VariableDeclarator → Scope × List Finding
  | [] => (scope, [])
  | declarator :: rest =>
    let (scope, findings) := checkDeclarator members type location scope declarator
    let (scope, more) := checkDeclarators members type location scope rest
    (scope, findings ++ more)

mutual

/-- The violations in a statement, and the scope after it. -/
def checkStmt (members : List String) (scope : Scope) (stmt : Stmt) : Scope × List Finding :=
  match Construct.ofStmt? stmt.kind with
  | some construct => (scope, [{ location := stmt.location, value := .unsupported construct }])
  | none =>
    match stmt with
    | ⟨.block body, _⟩ => checkStmts members scope body
    | ⟨.expression value, _⟩ => (scope, scope.checkExpr value)
    | ⟨.declaration declaration, location⟩ =>
      checkDeclarators members declaration.type location scope declaration.declarators
    | ⟨.ifElse condition thenBranch elseBranch, _⟩ =>
      let (afterThen, thenFindings) := checkStmt members scope thenBranch
      let (afterElse, elseFindings) := checkOptionalStmt members afterThen elseBranch
      (afterElse, scope.checkExpr condition ++ thenFindings ++ elseFindings)
    | ⟨.whileLoop condition body, _⟩ =>
      let (after, findings) := checkStmt members scope body
      (after, scope.checkExpr condition ++ findings)
    | ⟨.doWhileLoop body condition, _⟩ =>
      let (after, findings) := checkStmt members scope body
      (after, scope.checkExpr condition ++ findings)
    | ⟨.forLoop initializers condition increments body, _⟩ =>
      let (inner, initializerFindings) := checkStmts members scope initializers
      let (after, findings) := checkStmt members inner body
      (after,
        initializerFindings ++ inner.checkOption condition ++ inner.checkExprs increments ++
          findings)
    | ⟨.returning (some value), location⟩ =>
      (scope, { location, value := .returnValue scope.method.name } :: scope.checkExpr value)
    | _ => (scope, [])

/-- The violations in a list of statements, and the scope after them. -/
def checkStmts (members : List String) (scope : Scope) (stmts : List Stmt) :
    Scope × List Finding :=
  match stmts with
  | [] => (scope, [])
  | stmt :: rest =>
    let (scope, findings) := checkStmt members scope stmt
    let (scope, more) := checkStmts members scope rest
    (scope, findings ++ more)

/-- The violations in an optional statement, and the scope after it. -/
def checkOptionalStmt (members : List String) (scope : Scope) (stmt : Option Stmt) :
    Scope × List Finding :=
  match stmt with
  | none => (scope, [])
  | some stmt => checkStmt members scope stmt

end

/-- The violations in the body of a shader method. -/
def checkBody (members : List String) (effect : Effect) (method : ShaderMethod) : List Finding :=
  (checkStmts members { effect, method } method.body).2

end ShaderEffect
