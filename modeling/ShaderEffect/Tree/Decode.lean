import ShaderEffect.Json.Decoder
import ShaderEffect.Tree.Declaration

/-!
# Trees from JSON

Reading the interchange form of source files. Keys with a default may be missing, unknown keys are
ignored.
-/

namespace ShaderEffect

open Json (Decoder Input)
open Json.Input (list? option? pair? record? fields? variant? isBare oneOf?)

def Location.ofJson? (input : Input) : Option Location := do
  let record ← record? ["line", "column"] input
  return {
    line := ← record.required "line" Input.uint32?
    column := ← record.required "column" Input.uint32? }

/-- Reads a type reference that is nested at most `fuel` deep. -/
def TypeRef.decode : Nat → Decoder TypeRef
  | 0, _ => none
  | fuel + 1, input =>
    match variant? input with
    | some ("Named", some content) => content.string?.map .named
    | some ("Array", some content) => (decode fuel content).map .array
    | some ("Pointer", some content) => (decode fuel content).map .pointer
    | some ("Inferred", content) => if isBare content then some .inferred else none
    | _ => none

def TypeRef.ofJson? (input : Input) : Option TypeRef :=
  TypeRef.decode (input.json.depth + 1) input

def Value.ofJson? (input : Input) : Option Value :=
  match variant? input with
  | some ("Bool", some content) => content.bool?.map .bool
  | some ("Int", some content) => content.int64?.map .int
  | some ("Float", some content) => content.float?.map .float
  | some ("String", some content) => content.string?.map .string
  | _ => none

def MethodRef.ofJson? (input : Input) : Option MethodRef := do
  let record ← record? ["declaring_type", "name", "parameter_types", "is_static"] input
  return {
    declaringType := ← record.required "declaring_type" Input.string?
    name := ← record.required "name" Input.string?
    parameterTypes := ← record.required "parameter_types" (list? Input.string?)
    isStatic := ← record.required "is_static" Input.bool? }

/-- The only field of an alternative that holds a name. -/
def nameOfJson? (input : Input) : Option String := do
  (← fields? ["name"] input).required "name" Input.string?

def Symbol.ofJson? (input : Input) : Option Symbol :=
  match variant? input with
  | some ("Field", some content) => (nameOfJson? content).map .field
  | some ("Local", some content) => (nameOfJson? content).map .localVariable
  | some ("Parameter", some content) => (nameOfJson? content).map .parameter
  | some ("Method", some content) => (MethodRef.ofJson? content).map .method
  | some ("Property", some content) => do
    let record ← fields? ["declaring_type", "name", "is_static"] content
    let declaringType ← record.required "declaring_type" Input.string?
    let name ← record.required "name" Input.string?
    let isStatic ← record.required "is_static" Input.bool?
    return .property declaringType name isStatic
  | some ("Type", some content) => (nameOfJson? content).map .typeName
  | _ => none

def Notes.ofJson? (input : Input) : Option Notes := do
  let record ← record? ["ty", "symbol", "constant"] input
  return {
    type := ← record.defaulted "ty" none (option? TypeRef.ofJson?)
    symbol := ← record.defaulted "symbol" none (option? Symbol.ofJson?)
    constant := ← record.defaulted "constant" none (option? Value.ofJson?) }

def BinaryOp.ofJson? : Decoder BinaryOp := oneOf? all tag

def UnaryOp.ofJson? : Decoder UnaryOp := oneOf? all tag

def AssignOp.ofJson? : Decoder AssignOp := oneOf? all tag

def QueryClauseKind.ofJson? : Decoder QueryClauseKind := oneOf? all tag

def PassMode.ofJson? : Decoder PassMode := oneOf? all tag

def Modifier.ofJson? : Decoder Modifier := oneOf? all tag

def MemberKind.ofJson? : Decoder MemberKind := oneOf? all tag

/-! ## Expressions and statements

Each form is read by a function that takes the readers of the expressions and statements in it. -/

/-- Readers of nested expressions and statements. -/
structure NodeReaders where
  expr : Decoder Expr
  stmt : Decoder Stmt

namespace NodeReaders

variable (read : NodeReaders)

def argument? (input : Input) : Option Argument := do
  let record ← record? ["name", "modifier", "value"] input
  let name ← record.optional "name" Input.string?
  let mode ← record.defaulted "modifier" PassMode.byValue PassMode.ofJson?
  let value ← record.required "value" read.expr
  return { name, mode, value }

def queryClause? (input : Input) : Option QueryClause := do
  let record ← record? ["kind", "value"] input
  let kind ← record.required "kind" QueryClauseKind.ofJson?
  let value ← record.required "value" read.expr
  return { kind, value }

def declarator? (input : Input) : Option VariableDeclarator := do
  let record ← record? ["name", "initializer", "location"] input
  let name ← record.required "name" Input.string?
  let initializer ← record.optional "initializer" read.expr
  let location ← record.defaulted "location" {} Location.ofJson?
  return { name, initializer, location }

def declaration? (input : Input) : Option VariableDeclaration := do
  let record ← record? ["ty", "declarators"] input
  let type ← record.required "ty" TypeRef.ofJson?
  let declarators ← record.required "declarators" (list? read.declarator?)
  return { type, declarators }

def switchSection? (input : Input) : Option SwitchSection := do
  let record ← record? ["labels", "body"] input
  let labels ← record.required "labels" (list? (option? read.expr))
  let body ← record.required "body" (list? read.stmt)
  return { labels, body }

def catchClause? (input : Input) : Option CatchClause := do
  let record ← record? ["ty", "body"] input
  let type ← record.optional "ty" TypeRef.ofJson?
  let body ← record.required "body" (list? read.stmt)
  return { type, body }

/-- A target expression and the name of a member. -/
def memberOf? (input : Input) : Option (Expr × String) := do
  let record ← fields? ["target", "member"] input
  return (← record.required "target" read.expr, ← record.required "member" Input.string?)

/-- The parameters and the body of an anonymous function. -/
def function? (input : Input) : Option (List String × List Stmt) := do
  let record ← fields? ["parameters", "body"] input
  let parameters ← record.required "parameters" (list? Input.string?)
  let body ← record.required "body" (list? read.stmt)
  return (parameters, body)

/-- An operand and the type that it is tested against. -/
def typeTest? (input : Input) : Option (Expr × TypeRef) := do
  let record ← fields? ["operand", "ty"] input
  return (← record.required "operand" read.expr, ← record.required "ty" TypeRef.ofJson?)

def exprKind? (input : Input) : Option ExprKind := do
  match ← variant? input with
  | ("Literal", some content) => (Value.ofJson? content).map .literal
  | ("Identifier", some content) => content.string?.map .identifier
  | ("MemberAccess", some content) =>
    let (target, member) ← read.memberOf? content
    return .memberAccess target member
  | ("Index", some content) =>
    let record ← fields? ["target", "index"] content
    let target ← record.required "target" read.expr
    let index ← record.required "index" read.expr
    return .index target index
  | ("Invocation", some content) =>
    let record ← fields? ["callee", "arguments"] content
    let callee ← record.required "callee" read.expr
    let arguments ← record.required "arguments" (list? read.argument?)
    return .invocation callee arguments
  | ("ObjectCreation", some content) =>
    let record ← fields? ["ty", "arguments", "initializer"] content
    let type ← record.required "ty" TypeRef.ofJson?
    let arguments ← record.required "arguments" (list? read.argument?)
    let initializer ← record.optional "initializer" (list? read.expr)
    return .objectCreation type arguments initializer
  | ("ArrayCreation", some content) =>
    let record ← fields? ["element", "size", "initializer"] content
    let element ← record.required "element" TypeRef.ofJson?
    let size ← record.optional "size" read.expr
    let initializer ← record.optional "initializer" (list? read.expr)
    return .arrayCreation element size initializer
  | ("ArrayInitializer", some content) => (list? read.expr content).map .arrayInitializer
  | ("Binary", some content) =>
    let record ← fields? ["op", "lhs", "rhs"] content
    let op ← record.required "op" BinaryOp.ofJson?
    let lhs ← record.required "lhs" read.expr
    let rhs ← record.required "rhs" read.expr
    return .binary op lhs rhs
  | ("Unary", some content) =>
    let record ← fields? ["op", "operand"] content
    let op ← record.required "op" UnaryOp.ofJson?
    let operand ← record.required "operand" read.expr
    return .unary op operand
  | ("Assignment", some content) =>
    let record ← fields? ["op", "target", "value"] content
    let op ← record.required "op" AssignOp.ofJson?
    let target ← record.required "target" read.expr
    let value ← record.required "value" read.expr
    return .assignment op target value
  | ("Conditional", some content) =>
    let record ← fields? ["condition", "then_value", "else_value"] content
    let condition ← record.required "condition" read.expr
    let thenValue ← record.required "then_value" read.expr
    let elseValue ← record.required "else_value" read.expr
    return .conditional condition thenValue elseValue
  | ("Cast", some content) =>
    let record ← fields? ["ty", "operand"] content
    let type ← record.required "ty" TypeRef.ofJson?
    let operand ← record.required "operand" read.expr
    return .cast type operand
  | ("Parenthesized", some content) => (read.expr content).map .parenthesized
  | ("This", content) => if isBare content then some .thisReference else none
  | ("Base", content) => if isBare content then some .baseReference else none
  | ("Null", content) => if isBare content then some .nullReference else none
  | ("AnonymousObject", some content) =>
    (list? (pair? Input.string? read.expr) content).map .anonymousObject
  | ("Lambda", some content) =>
    let (parameters, body) ← read.function? content
    return .lambda parameters body
  | ("AnonymousMethod", some content) =>
    let (parameters, body) ← read.function? content
    return .anonymousMethod parameters body
  | ("PointerMemberAccess", some content) =>
    let (target, member) ← read.memberOf? content
    return .pointerMemberAccess target member
  | ("AddressOf", some content) => (read.expr content).map .addressOf
  | ("Dereference", some content) => (read.expr content).map .dereference
  | ("SizeOf", some content) => (TypeRef.ofJson? content).map .sizeOfType
  | ("TypeOf", some content) => (TypeRef.ofJson? content).map .typeOfType
  | ("Default", some content) => (option? TypeRef.ofJson? content).map .defaultValue
  | ("As", some content) =>
    let (operand, type) ← read.typeTest? content
    return .asType operand type
  | ("Is", some content) =>
    let (operand, type) ← read.typeTest? content
    return .isType operand type
  | ("Query", some content) => (list? read.queryClause? content).map .query
  | ("Await", some content) => (read.expr content).map .await
  | ("Checked", some content) => (read.expr content).map .checked
  | ("Unchecked", some content) => (read.expr content).map .unchecked
  | ("StackAlloc", some content) =>
    let record ← fields? ["element", "size"] content
    let element ← record.required "element" TypeRef.ofJson?
    let size ← record.required "size" read.expr
    return .stackAllocation element size
  | ("InterpolatedString", some content) => (list? read.expr content).map .interpolatedString
  | ("Throw", some content) => (read.expr content).map .throwing
  | _ => none

def expr? (input : Input) : Option Expr := do
  let record ← record? ["kind", "location", "annotation"] input
  let kind ← record.required "kind" read.exprKind?
  let location ← record.defaulted "location" {} Location.ofJson?
  let notes ← record.defaulted "annotation" {} Notes.ofJson?
  return { kind, location, notes }

def stmtKind? (input : Input) : Option StmtKind := do
  match ← variant? input with
  | ("Block", some content) => (list? read.stmt content).map .block
  | ("Empty", content) => if isBare content then some .empty else none
  | ("Expression", some content) => (read.expr content).map .expression
  | ("Declaration", some content) => (read.declaration? content).map .declaration
  | ("If", some content) =>
    let record ← fields? ["condition", "then_branch", "else_branch"] content
    let condition ← record.required "condition" read.expr
    let thenBranch ← record.required "then_branch" read.stmt
    let elseBranch ← record.optional "else_branch" read.stmt
    return .ifElse condition thenBranch elseBranch
  | ("While", some content) =>
    let record ← fields? ["condition", "body"] content
    let condition ← record.required "condition" read.expr
    let body ← record.required "body" read.stmt
    return .whileLoop condition body
  | ("DoWhile", some content) =>
    let record ← fields? ["body", "condition"] content
    let body ← record.required "body" read.stmt
    let condition ← record.required "condition" read.expr
    return .doWhileLoop body condition
  | ("For", some content) =>
    let record ← fields? ["initializers", "condition", "increments", "body"] content
    let initializers ← record.required "initializers" (list? read.stmt)
    let condition ← record.optional "condition" read.expr
    let increments ← record.required "increments" (list? read.expr)
    let body ← record.required "body" read.stmt
    return .forLoop initializers condition increments body
  | ("Return", some content) => (option? read.expr content).map .returning
  | ("Break", content) => if isBare content then some .breakLoop else none
  | ("Continue", content) => if isBare content then some .continueLoop else none
  | ("Foreach", some content) =>
    let record ← fields? ["ty", "name", "collection", "body"] content
    let type ← record.required "ty" TypeRef.ofJson?
    let name ← record.required "name" Input.string?
    let collection ← record.required "collection" read.expr
    let body ← record.required "body" read.stmt
    return .forEachLoop type name collection body
  | ("Switch", some content) =>
    let record ← fields? ["value", "sections"] content
    let value ← record.required "value" read.expr
    let sections ← record.required "sections" (list? read.switchSection?)
    return .switchOn value sections
  | ("Checked", some content) => (list? read.stmt content).map .checkedBlock
  | ("Unchecked", some content) => (list? read.stmt content).map .uncheckedBlock
  | ("Unsafe", some content) => (list? read.stmt content).map .unsafeBlock
  | ("Fixed", some content) =>
    let record ← fields? ["declaration", "body"] content
    let declaration ← record.required "declaration" read.declaration?
    let body ← record.required "body" read.stmt
    return .fixedBlock declaration body
  | ("Lock", some content) =>
    let record ← fields? ["value", "body"] content
    let value ← record.required "value" read.expr
    let body ← record.required "body" read.stmt
    return .lockBlock value body
  | ("Try", some content) =>
    let record ← fields? ["body", "catches", "finally"] content
    let body ← record.required "body" (list? read.stmt)
    let catches ← record.required "catches" (list? read.catchClause?)
    let finalizer ← record.optional "finally" (list? read.stmt)
    return .tryBlock body catches finalizer
  | ("Throw", some content) => (option? read.expr content).map .throwing
  | ("Using", some content) =>
    let record ← fields? ["resource", "body"] content
    let resource ← record.required "resource" read.stmt
    let body ← record.required "body" read.stmt
    return .usingBlock resource body
  | ("Goto", some content) => content.string?.map .goto
  | ("Labeled", some content) =>
    let record ← fields? ["label", "body"] content
    let label ← record.required "label" Input.string?
    let body ← record.required "body" read.stmt
    return .labeled label body
  | ("Yield", some content) => (option? read.expr content).map .yielding
  | ("LocalFunction", some content) =>
    let record ← fields? ["name", "body"] content
    let name ← record.required "name" Input.string?
    let body ← record.required "body" (list? read.stmt)
    return .localFunction name body
  | ("Preprocessor", some content) => content.string?.map .preprocessor
  | _ => none

def stmt? (input : Input) : Option Stmt := do
  let record ← record? ["kind", "location"] input
  let kind ← record.required "kind" read.stmtKind?
  let location ← record.defaulted "location" {} Location.ofJson?
  return { kind, location }

/-- The readers of trees that are nested at most `depth` deep. -/
def upTo : Nat → NodeReaders
  | 0 => { expr := fun _ => none, stmt := fun _ => none }
  | depth + 1 =>
    let inner := upTo depth
    { expr := fun input => inner.expr? input, stmt := fun input => inner.stmt? input }

end NodeReaders

/-- Readers that are deep enough for a JSON value: every tree node is at least one object deeper
than the node around it. -/
def Json.Input.nodeReaders (input : Input) : NodeReaders :=
  NodeReaders.upTo (input.json.depth + 1)

def Expr.ofJson? (input : Input) : Option Expr := input.nodeReaders.expr input

def Stmt.ofJson? (input : Input) : Option Stmt := input.nodeReaders.stmt input

def ExprKind.ofJson? (input : Input) : Option ExprKind := input.nodeReaders.exprKind? input

def StmtKind.ofJson? (input : Input) : Option StmtKind := input.nodeReaders.stmtKind? input

def Argument.ofJson? (input : Input) : Option Argument := input.nodeReaders.argument? input

def QueryClause.ofJson? (input : Input) : Option QueryClause := input.nodeReaders.queryClause? input

def VariableDeclaration.ofJson? (input : Input) : Option VariableDeclaration :=
  input.nodeReaders.declaration? input

def VariableDeclarator.ofJson? (input : Input) : Option VariableDeclarator :=
  input.nodeReaders.declarator? input

def SwitchSection.ofJson? (input : Input) : Option SwitchSection :=
  input.nodeReaders.switchSection? input

def CatchClause.ofJson? (input : Input) : Option CatchClause := input.nodeReaders.catchClause? input

/-! ## Declarations -/

def AttributeArgument.ofJson? (input : Input) : Option AttributeArgument := do
  let record ← record? ["name", "value"] input
  let name ← record.optional "name" Input.string?
  let value ← record.required "value" Expr.ofJson?
  return { name, value }

def Attribute.ofJson? (input : Input) : Option Attribute := do
  let record ← record? ["name", "arguments", "location"] input
  let name ← record.required "name" Input.string?
  let arguments ← record.defaulted "arguments" [] (list? AttributeArgument.ofJson?)
  let location ← record.defaulted "location" {} Location.ofJson?
  return { name, arguments, location }

def OtherMember.ofJson? (input : Input) : Option OtherMember := do
  let record ← record? ["kind", "name", "location"] input
  let kind ← record.required "kind" MemberKind.ofJson?
  let name ← record.required "name" Input.string?
  let location ← record.defaulted "location" {} Location.ofJson?
  return { kind, name, location }

def FieldDecl.ofJson? (input : Input) : Option FieldDecl := do
  let record ← record?
    ["name", "ty", "modifiers", "attributes", "initializer", "documentation", "location"] input
  let name ← record.defaulted "name" "" Input.string?
  let type ← record.defaulted "ty" .inferred TypeRef.ofJson?
  let modifiers ← record.defaulted "modifiers" [] (list? Modifier.ofJson?)
  let attributes ← record.defaulted "attributes" [] (list? Attribute.ofJson?)
  let initializer ← record.defaulted "initializer" none (option? Expr.ofJson?)
  let documentation ← record.defaulted "documentation" [] (list? Input.string?)
  let location ← record.defaulted "location" {} Location.ofJson?
  return { name, type, modifiers, attributes, initializer, documentation, location }

def ParamDecl.ofJson? (input : Input) : Option ParamDecl := do
  let record ← record? ["name", "ty", "modifier", "attributes", "location"] input
  let name ← record.required "name" Input.string?
  let type ← record.required "ty" TypeRef.ofJson?
  let mode ← record.defaulted "modifier" PassMode.byValue PassMode.ofJson?
  let attributes ← record.defaulted "attributes" [] (list? Attribute.ofJson?)
  let location ← record.defaulted "location" {} Location.ofJson?
  return { name, type, mode, attributes, location }

def MethodDecl.ofJson? (input : Input) : Option MethodDecl := do
  let record ← record?
    ["name", "modifiers", "attributes", "type_parameters", "parameters", "return_type", "body",
      "documentation", "location"] input
  let name ← record.defaulted "name" "" Input.string?
  let modifiers ← record.defaulted "modifiers" [] (list? Modifier.ofJson?)
  let attributes ← record.defaulted "attributes" [] (list? Attribute.ofJson?)
  let typeParameters ← record.defaulted "type_parameters" [] (list? Input.string?)
  let parameters ← record.defaulted "parameters" [] (list? ParamDecl.ofJson?)
  let returnType ← record.defaulted "return_type" (.named "void") TypeRef.ofJson?
  let body ← record.defaulted "body" none (option? (list? Stmt.ofJson?))
  let documentation ← record.defaulted "documentation" [] (list? Input.string?)
  let location ← record.defaulted "location" {} Location.ofJson?
  return {
    name, modifiers, attributes, typeParameters, parameters, returnType, body, documentation,
    location }

def Member.ofJson? (input : Input) : Option Member :=
  match variant? input with
  | some ("Field", some content) => (FieldDecl.ofJson? content).map .field
  | some ("Method", some content) => (MethodDecl.ofJson? content).map .method
  | some ("Other", some content) => (OtherMember.ofJson? content).map .other
  | _ => none

def TypeDecl.ofJson? (input : Input) : Option TypeDecl := do
  let record ← record?
    ["name", "namespace", "documentation", "modifiers", "base_types", "attributes",
      "type_parameters", "members", "location"] input
  let name ← record.defaulted "name" "" Input.string?
  let enclosingNamespace ← record.defaulted "namespace" none (option? Input.string?)
  let documentation ← record.defaulted "documentation" [] (list? Input.string?)
  let modifiers ← record.defaulted "modifiers" [] (list? Modifier.ofJson?)
  let baseTypes ← record.defaulted "base_types" [] (list? TypeRef.ofJson?)
  let attributes ← record.defaulted "attributes" [] (list? Attribute.ofJson?)
  let typeParameters ← record.defaulted "type_parameters" [] (list? Input.string?)
  let members ← record.defaulted "members" [] (list? Member.ofJson?)
  let location ← record.defaulted "location" {} Location.ofJson?
  return {
    name, enclosingNamespace, documentation, modifiers, baseTypes, attributes, typeParameters,
    members, location }

def SourceFile.ofJson? (input : Input) : Option SourceFile := do
  let record ← record? ["path", "types"] input
  let path ← record.required "path" Input.string?
  let types ← record.required "types" (list? TypeDecl.ofJson?)
  return { path, types }

end ShaderEffect
