import ShaderEffect.Decimal.Notation
import ShaderEffect.Scope
import ShaderEffect.Shader.Dialect

/-!
# Writing expressions

The text of an expression of a shader body in a target language. Operands with operators are put in
parentheses, so that the text keeps the shape of the tree whatever the precedences.
-/

namespace ShaderEffect

/-- Whether a type has floating point components that a remainder is taken of. -/
def DataType.isFloating (type : DataType) : Bool :=
  type = .float || type.isVector

/-- Whether an operator on these types is spelled in a way of its own in each language. -/
def BinaryOp.isSpecial (op : BinaryOp) (lhs rhs : DataType) : Bool :=
  match op with
  | .mul => lhs.isMatrix || rhs.isMatrix
  | .rem => lhs.isFloating || rhs.isFloating
  | _ => false

/-- The text of a literal. -/
def Value.render : Value → Except CompileError String
  | bool value => return toString value
  | int value => return toString value.toInt
  | float value => return Decimal.literal.float value
  | string _ => throw (.unwritable (.construct .stringLiteral))

/-- The text of an operator before or after its operand. A sign before a signed operand is kept
apart from it. -/
def UnaryOp.render (op : UnaryOp) (operand : Operand) : String :=
  if op.isTrailing then operand.wrapped ++ op.token
  else if operand.text.startsWith "-" || operand.text.startsWith "+" then
    s!"{op.token}({operand.text})"
  else op.token ++ operand.wrapped

namespace Dialect

/-- A binary operation. -/
def binary (dialect : Dialect) (op : BinaryOp) (lhsType rhsType : DataType) (lhs rhs : Operand) :
    Operand :=
  if op.isSpecial lhsType rhsType then
    match op with
    | .mul => dialect.product lhs rhs
    | _ => dialect.remainder lhs rhs
  else .ofOperator s!"{lhs.wrapped} {op.token} {rhs.wrapped}"

/-- An assignment. A compound assignment with a special operator is written out. -/
def assignment (dialect : Dialect) (op : AssignOp) (targetType valueType : DataType)
    (target value : Operand) : Operand :=
  let plain := s!"{target.text} {op.token} {value.text}"
  match op.binary? with
  | some binaryOp =>
    if binaryOp.isSpecial targetType valueType then
      let result := dialect.binary binaryOp targetType valueType target value
      .ofOperator s!"{target.text} = {result.text}"
    else .ofOperator plain
  | none => .ofOperator plain

/-- A reference to what a name is bound to. -/
def identifier (dialect : Dialect) (scope : Scope) (name : String) :
    Except CompileError String :=
  match scope.lookup? name with
  | some (.parameter declared) => return dialect.parameter scope.method declared
  | some _ => return name
  | none => throw (.unknownIdentifier name)

/-- A static property, as the construction of its value. -/
def staticMember (dialect : Dialect) (receiver member : String) : Except CompileError String :=
  let type := DataType.ofHostName receiver
  match staticProperty? type member with
  | some values => dialect.construction type (values.map Decimal.literal.float)
  | none => throw (.unwritable .staticMember)

mutual

/-- The text of an expression. -/
def render (dialect : Dialect) (scope : Scope) (e : Expr) : Except CompileError Operand :=
  match Construct.ofExpr? e.kind with
  | some construct => throw (.unwritable (.construct construct))
  | none =>
    match e with
    | ⟨.literal value, _, _⟩ => do return .atom (← value.render)
    | ⟨.identifier name, _, _⟩ => do return .atom (← dialect.identifier scope name)
    | ⟨.memberAccess target member, _, _⟩ =>
      match scope.staticReceiver? target with
      | some receiver => do return .atom (← dialect.staticMember receiver member)
      | none =>
        match swizzle? member (scope.typeOf target) with
        | some components => do
          let target ← dialect.render scope target
          return .atom s!"{target.wrapped}.{components}"
        | none => throw (.unwritable .memberAccess)
    | ⟨.index target index, _, _⟩ => do
      let target ← dialect.render scope target
      let index ← dialect.render scope index
      return .atom s!"{target.wrapped}[{index.text}]"
    | ⟨.invocation callee arguments, _, _⟩ =>
      match scope.call? e with
      | none => throw (.unwritable .invocation)
      | some call =>
        if call.intrinsic = .unknown then throw (.unresolvedInvocation call.method.describe)
        else do
          let receiver ←
            match call.receiver with
            | none => pure []
            | some receiver =>
              if call.intrinsic = .sampleTexture then
                match scope.texture? receiver with
                | some texture => pure [Operand.atom texture.name]
                | none => throw (.unwritable .textureReceiver)
              else do pure [← dialect.renderReceiver scope callee]
          let arguments ← dialect.renderArguments scope arguments
          return .atom (← dialect.intrinsicCall scope.method.stage call.intrinsic
            (receiver ++ arguments))
    | ⟨.objectCreation type arguments _, _, _⟩ => do
      let type := type.dataType
      if type.isVector || type.isMatrix then
        let arguments ← dialect.renderArguments scope arguments
        return .atom (← dialect.construction type (arguments.map (·.text)))
      else throw (.unknownType type)
    | ⟨.binary op lhs rhs, _, _⟩ => do
      let left ← dialect.render scope lhs
      let right ← dialect.render scope rhs
      return dialect.binary op (scope.typeOf lhs) (scope.typeOf rhs) left right
    | ⟨.unary op operand, _, _⟩ => do return .atom (op.render (← dialect.render scope operand))
    | ⟨.assignment op target value, _, _⟩ => do
      let left ← dialect.render scope target
      let right ← dialect.render scope value
      return dialect.assignment op (scope.typeOf target) (scope.typeOf value) left right
    | ⟨.conditional condition thenValue elseValue, _, _⟩ => do
      let condition ← dialect.render scope condition
      let thenValue ← dialect.render scope thenValue
      let elseValue ← dialect.render scope elseValue
      return .ofOperator s!"{condition.wrapped} ? {thenValue.wrapped} : {elseValue.wrapped}"
    | ⟨.cast type operand, _, _⟩ => do
      return .atom (← dialect.cast type.dataType (← dialect.render scope operand))
    | ⟨.parenthesized inner, _, _⟩ => do
      return .atom s!"({(← dialect.render scope inner).text})"
    | _ => throw (.unwritable .expression)

/-- The text of the receiver of a call, given the callee. -/
def renderReceiver (dialect : Dialect) (scope : Scope) (callee : Expr) :
    Except CompileError Operand :=
  match callee with
  | ⟨.memberAccess target _, _, _⟩ => dialect.render scope target
  | ⟨.parenthesized inner, _, _⟩ => dialect.renderReceiver scope inner
  | _ => throw (.unwritable .invocation)

/-- The texts of arguments, by position. -/
def renderArguments (dialect : Dialect) (scope : Scope) (arguments : List Argument) :
    Except CompileError (List Operand) :=
  match arguments with
  | [] => return []
  | ⟨_, _, value⟩ :: rest => do
    let value ← dialect.render scope value
    return value :: (← dialect.renderArguments scope rest)

end

/-- The text of an expression that stands alone. -/
def renderText (dialect : Dialect) (scope : Scope) (e : Expr) : Except CompileError String := do
  return (← dialect.render scope e).text

/-- The texts of expressions that stand alone. -/
def renderTexts (dialect : Dialect) (scope : Scope) (es : List Expr) :
    Except CompileError (List String) :=
  es.mapM (dialect.renderText scope)

end Dialect

end ShaderEffect
