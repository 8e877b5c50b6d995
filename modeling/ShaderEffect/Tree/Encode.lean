import ShaderEffect.Json.Decoder
import ShaderEffect.Tree.Declaration

/-!
# Trees as JSON

The interchange form of source files, with every key present.
-/

namespace ShaderEffect

open Json (ofList ofOption ofVariant)

def Location.toJson (location : Location) : Json :=
  .object [("line", .ofNat location.line.toNat), ("column", .ofNat location.column.toNat)]

def TypeRef.toJson : TypeRef → Json
  | named name => ofVariant "Named" (.string name)
  | array element => ofVariant "Array" element.toJson
  | pointer element => ofVariant "Pointer" element.toJson
  | inferred => .string "Inferred"

def Value.toJson : Value → Json
  | bool value => ofVariant "Bool" (.bool value)
  | int value => ofVariant "Int" (.int value.toInt)
  | float value => ofVariant "Float" (.float value)
  | string value => ofVariant "String" (.string value)

def MethodRef.toJson (method : MethodRef) : Json :=
  .object [
    ("declaring_type", .string method.declaringType),
    ("name", .string method.name),
    ("parameter_types", ofList .string method.parameterTypes),
    ("is_static", .bool method.isStatic)]

def Symbol.toJson : Symbol → Json
  | field name => ofVariant "Field" (.object [("name", .string name)])
  | localVariable name => ofVariant "Local" (.object [("name", .string name)])
  | parameter name => ofVariant "Parameter" (.object [("name", .string name)])
  | .method target => ofVariant "Method" target.toJson
  | property declaringType name isStatic =>
    ofVariant "Property" (.object [
      ("declaring_type", .string declaringType),
      ("name", .string name),
      ("is_static", .bool isStatic)])
  | typeName name => ofVariant "Type" (.object [("name", .string name)])

def Notes.toJson (notes : Notes) : Json :=
  .object [
    ("ty", ofOption TypeRef.toJson notes.type),
    ("symbol", ofOption Symbol.toJson notes.symbol),
    ("constant", ofOption Value.toJson notes.constant)]

mutual

def Expr.toJson : Expr → Json
  | ⟨kind, location, notes⟩ =>
    .object [
      ("kind", kind.toJson),
      ("location", location.toJson),
      ("annotation", notes.toJson)]

def ExprKind.toJson : ExprKind → Json
  | .literal value => ofVariant "Literal" value.toJson
  | .identifier name => ofVariant "Identifier" (.string name)
  | .memberAccess target member =>
    ofVariant "MemberAccess" (.object [("target", target.toJson), ("member", .string member)])
  | .index target index =>
    ofVariant "Index" (.object [("target", target.toJson), ("index", index.toJson)])
  | .invocation callee arguments =>
    ofVariant "Invocation" (.object [
      ("callee", callee.toJson),
      ("arguments", .array (argumentsToJson arguments))])
  | .objectCreation type arguments initializer =>
    ofVariant "ObjectCreation" (.object [
      ("ty", type.toJson),
      ("arguments", .array (argumentsToJson arguments)),
      ("initializer", valuesToJson initializer)])
  | .arrayCreation element size initializer =>
    ofVariant "ArrayCreation" (.object [
      ("element", element.toJson),
      ("size", optionalExprToJson size),
      ("initializer", valuesToJson initializer)])
  | .arrayInitializer values => ofVariant "ArrayInitializer" (.array (exprsToJson values))
  | .binary op lhs rhs =>
    ofVariant "Binary" (.object [
      ("op", .string op.tag),
      ("lhs", lhs.toJson),
      ("rhs", rhs.toJson)])
  | .unary op operand =>
    ofVariant "Unary" (.object [("op", .string op.tag), ("operand", operand.toJson)])
  | .assignment op target value =>
    ofVariant "Assignment" (.object [
      ("op", .string op.tag),
      ("target", target.toJson),
      ("value", value.toJson)])
  | .conditional condition thenValue elseValue =>
    ofVariant "Conditional" (.object [
      ("condition", condition.toJson),
      ("then_value", thenValue.toJson),
      ("else_value", elseValue.toJson)])
  | .cast type operand =>
    ofVariant "Cast" (.object [("ty", type.toJson), ("operand", operand.toJson)])
  | .parenthesized inner => ofVariant "Parenthesized" inner.toJson
  | .thisReference => .string "This"
  | .baseReference => .string "Base"
  | .nullReference => .string "Null"
  | .anonymousObject fields => ofVariant "AnonymousObject" (.array (namedExprsToJson fields))
  | .lambda parameters body =>
    ofVariant "Lambda" (.object [
      ("parameters", ofList .string parameters),
      ("body", .array (stmtsToJson body))])
  | .anonymousMethod parameters body =>
    ofVariant "AnonymousMethod" (.object [
      ("parameters", ofList .string parameters),
      ("body", .array (stmtsToJson body))])
  | .pointerMemberAccess target member =>
    ofVariant "PointerMemberAccess"
      (.object [("target", target.toJson), ("member", .string member)])
  | .addressOf operand => ofVariant "AddressOf" operand.toJson
  | .dereference operand => ofVariant "Dereference" operand.toJson
  | .sizeOfType type => ofVariant "SizeOf" type.toJson
  | .typeOfType type => ofVariant "TypeOf" type.toJson
  | .defaultValue type => ofVariant "Default" (ofOption TypeRef.toJson type)
  | .asType operand type =>
    ofVariant "As" (.object [("operand", operand.toJson), ("ty", type.toJson)])
  | .isType operand type =>
    ofVariant "Is" (.object [("operand", operand.toJson), ("ty", type.toJson)])
  | .query clauses => ofVariant "Query" (.array (clausesToJson clauses))
  | .await operand => ofVariant "Await" operand.toJson
  | .checked operand => ofVariant "Checked" operand.toJson
  | .unchecked operand => ofVariant "Unchecked" operand.toJson
  | .stackAllocation element size =>
    ofVariant "StackAlloc" (.object [("element", element.toJson), ("size", size.toJson)])
  | .interpolatedString parts => ofVariant "InterpolatedString" (.array (exprsToJson parts))
  | .throwing operand => ofVariant "Throw" operand.toJson

def Argument.toJson : Argument → Json
  | ⟨name, mode, value⟩ =>
    .object [
      ("name", ofOption .string name),
      ("modifier", .string mode.tag),
      ("value", value.toJson)]

def QueryClause.toJson : QueryClause → Json
  | ⟨kind, value⟩ => .object [("kind", .string kind.tag), ("value", value.toJson)]

def Stmt.toJson : Stmt → Json
  | ⟨kind, location⟩ => .object [("kind", kind.toJson), ("location", location.toJson)]

def StmtKind.toJson : StmtKind → Json
  | .block body => ofVariant "Block" (.array (stmtsToJson body))
  | .empty => .string "Empty"
  | .expression value => ofVariant "Expression" value.toJson
  | .declaration declaration => ofVariant "Declaration" declaration.toJson
  | .ifElse condition thenBranch elseBranch =>
    ofVariant "If" (.object [
      ("condition", condition.toJson),
      ("then_branch", thenBranch.toJson),
      ("else_branch", optionalStmtToJson elseBranch)])
  | .whileLoop condition body =>
    ofVariant "While" (.object [("condition", condition.toJson), ("body", body.toJson)])
  | .doWhileLoop body condition =>
    ofVariant "DoWhile" (.object [("body", body.toJson), ("condition", condition.toJson)])
  | .forLoop initializers condition increments body =>
    ofVariant "For" (.object [
      ("initializers", .array (stmtsToJson initializers)),
      ("condition", optionalExprToJson condition),
      ("increments", .array (exprsToJson increments)),
      ("body", body.toJson)])
  | .returning value => ofVariant "Return" (optionalExprToJson value)
  | .breakLoop => .string "Break"
  | .continueLoop => .string "Continue"
  | .forEachLoop type name collection body =>
    ofVariant "Foreach" (.object [
      ("ty", type.toJson),
      ("name", .string name),
      ("collection", collection.toJson),
      ("body", body.toJson)])
  | .switchOn value sections =>
    ofVariant "Switch" (.object [
      ("value", value.toJson),
      ("sections", .array (sectionsToJson sections))])
  | .checkedBlock body => ofVariant "Checked" (.array (stmtsToJson body))
  | .uncheckedBlock body => ofVariant "Unchecked" (.array (stmtsToJson body))
  | .unsafeBlock body => ofVariant "Unsafe" (.array (stmtsToJson body))
  | .fixedBlock declaration body =>
    ofVariant "Fixed" (.object [("declaration", declaration.toJson), ("body", body.toJson)])
  | .lockBlock value body =>
    ofVariant "Lock" (.object [("value", value.toJson), ("body", body.toJson)])
  | .tryBlock body catches finalizer =>
    ofVariant "Try" (.object [
      ("body", .array (stmtsToJson body)),
      ("catches", .array (catchesToJson catches)),
      ("finally", optionalStmtsToJson finalizer)])
  | .throwing value => ofVariant "Throw" (optionalExprToJson value)
  | .usingBlock resource body =>
    ofVariant "Using" (.object [("resource", resource.toJson), ("body", body.toJson)])
  | .goto label => ofVariant "Goto" (.string label)
  | .labeled label body =>
    ofVariant "Labeled" (.object [("label", .string label), ("body", body.toJson)])
  | .yielding value => ofVariant "Yield" (optionalExprToJson value)
  | .localFunction name body =>
    ofVariant "LocalFunction" (.object [
      ("name", .string name),
      ("body", .array (stmtsToJson body))])
  | .preprocessor text => ofVariant "Preprocessor" (.string text)

def VariableDeclaration.toJson : VariableDeclaration → Json
  | ⟨type, declarators⟩ =>
    .object [("ty", type.toJson), ("declarators", .array (declaratorsToJson declarators))]

def VariableDeclarator.toJson : VariableDeclarator → Json
  | ⟨name, initializer, location⟩ =>
    .object [
      ("name", .string name),
      ("initializer", optionalExprToJson initializer),
      ("location", location.toJson)]

def SwitchSection.toJson : SwitchSection → Json
  | ⟨labels, body⟩ =>
    .object [("labels", .array (labelsToJson labels)), ("body", .array (stmtsToJson body))]

def CatchClause.toJson : CatchClause → Json
  | ⟨type, body⟩ =>
    .object [("ty", ofOption TypeRef.toJson type), ("body", .array (stmtsToJson body))]

def argumentsToJson : List Argument → List Json
  | [] => []
  | argument :: rest => argument.toJson :: argumentsToJson rest

def exprsToJson : List Expr → List Json
  | [] => []
  | e :: rest => e.toJson :: exprsToJson rest

def valuesToJson : Option (List Expr) → Json
  | none => .null
  | some values => .array (exprsToJson values)

def optionalExprToJson : Option Expr → Json
  | none => .null
  | some e => e.toJson

def namedExprsToJson : List (String × Expr) → List Json
  | [] => []
  | (name, e) :: rest => .array [.string name, e.toJson] :: namedExprsToJson rest

def clausesToJson : List QueryClause → List Json
  | [] => []
  | clause :: rest => clause.toJson :: clausesToJson rest

def stmtsToJson : List Stmt → List Json
  | [] => []
  | stmt :: rest => stmt.toJson :: stmtsToJson rest

def optionalStmtToJson : Option Stmt → Json
  | none => .null
  | some stmt => stmt.toJson

def optionalStmtsToJson : Option (List Stmt) → Json
  | none => .null
  | some stmts => .array (stmtsToJson stmts)

def declaratorsToJson : List VariableDeclarator → List Json
  | [] => []
  | declarator :: rest => declarator.toJson :: declaratorsToJson rest

def labelsToJson : List (Option Expr) → List Json
  | [] => []
  | label :: rest => optionalExprToJson label :: labelsToJson rest

def sectionsToJson : List SwitchSection → List Json
  | [] => []
  | switchSection :: rest => switchSection.toJson :: sectionsToJson rest

def catchesToJson : List CatchClause → List Json
  | [] => []
  | clause :: rest => clause.toJson :: catchesToJson rest

end

def AttributeArgument.toJson (argument : AttributeArgument) : Json :=
  .object [("name", ofOption .string argument.name), ("value", argument.value.toJson)]

def Attribute.toJson (attr : Attribute) : Json :=
  .object [
    ("name", .string attr.name),
    ("arguments", ofList AttributeArgument.toJson attr.arguments),
    ("location", attr.location.toJson)]

def OtherMember.toJson (member : OtherMember) : Json :=
  .object [
    ("kind", .string member.kind.tag),
    ("name", .string member.name),
    ("location", member.location.toJson)]

def FieldDecl.toJson (field : FieldDecl) : Json :=
  .object [
    ("name", .string field.name),
    ("ty", field.type.toJson),
    ("modifiers", ofList (.string ·.tag) field.modifiers),
    ("attributes", ofList Attribute.toJson field.attributes),
    ("initializer", ofOption Expr.toJson field.initializer),
    ("documentation", ofList .string field.documentation),
    ("location", field.location.toJson)]

def ParamDecl.toJson (parameter : ParamDecl) : Json :=
  .object [
    ("name", .string parameter.name),
    ("ty", parameter.type.toJson),
    ("modifier", .string parameter.mode.tag),
    ("attributes", ofList Attribute.toJson parameter.attributes),
    ("location", parameter.location.toJson)]

def MethodDecl.toJson (method : MethodDecl) : Json :=
  .object [
    ("name", .string method.name),
    ("modifiers", ofList (.string ·.tag) method.modifiers),
    ("attributes", ofList Attribute.toJson method.attributes),
    ("type_parameters", ofList .string method.typeParameters),
    ("parameters", ofList ParamDecl.toJson method.parameters),
    ("return_type", method.returnType.toJson),
    ("body", ofOption (ofList Stmt.toJson) method.body),
    ("documentation", ofList .string method.documentation),
    ("location", method.location.toJson)]

def Member.toJson : Member → Json
  | .field decl => ofVariant "Field" decl.toJson
  | .method decl => ofVariant "Method" decl.toJson
  | .other member => ofVariant "Other" member.toJson

def TypeDecl.toJson (decl : TypeDecl) : Json :=
  .object [
    ("name", .string decl.name),
    ("namespace", ofOption .string decl.enclosingNamespace),
    ("documentation", ofList .string decl.documentation),
    ("modifiers", ofList (.string ·.tag) decl.modifiers),
    ("base_types", ofList TypeRef.toJson decl.baseTypes),
    ("attributes", ofList Attribute.toJson decl.attributes),
    ("type_parameters", ofList .string decl.typeParameters),
    ("members", ofList Member.toJson decl.members),
    ("location", decl.location.toJson)]

def SourceFile.toJson (file : SourceFile) : Json :=
  .object [("path", .string file.path), ("types", ofList TypeDecl.toJson file.types)]

end ShaderEffect
