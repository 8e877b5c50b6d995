import ShaderEffect.Tree.Declaration

/-!
# Constructing trees

Short ways to write expressions, statements and declarations. What is not said has its default:
no position, no annotation, no modifiers.
-/

namespace ShaderEffect

/-! ## Expressions -/

namespace Expr

/-- The expression at a position. -/
def locatedAt (e : Expr) (line column : UInt32) : Expr :=
  { e with location := { line, column } }

/-- The expression with the name of its type. -/
def typed (e : Expr) (type : String) : Expr :=
  { e with notes := { e.notes with type := some (.named type) } }

/-- The expression with what it refers to. -/
def withSymbol (e : Expr) (symbol : Symbol) : Expr :=
  { e with notes := { e.notes with symbol := some symbol } }

/-- The expression with its value. -/
def withConstant (e : Expr) (value : Value) : Expr :=
  { e with notes := { e.notes with constant := some value } }

def ident (name : String) : Expr :=
  { kind := .identifier name }

/-- A type as the target of a static member. -/
def typeName (name : String) : Expr :=
  (ident name).withSymbol (.typeName name)

def literal (value : Value) : Expr :=
  { kind := .literal value }

def member (target : Expr) (name : String) : Expr :=
  { kind := .memberAccess target name }

def item (target index : Expr) : Expr :=
  { kind := .index target index }

def call (callee : Expr) (arguments : List Expr) : Expr :=
  { kind := .invocation callee (arguments.map fun value => { value }) }

def newObject (type : String) (arguments : List Expr) : Expr :=
  { kind := .objectCreation (.named type) (arguments.map fun value => { value }) none }

def newArray (element : String) (values : List Expr) : Expr :=
  { kind := .arrayCreation (.named element) none (some values) }

def binary (op : BinaryOp) (lhs rhs : Expr) : Expr :=
  { kind := .binary op lhs rhs }

def unary (op : UnaryOp) (operand : Expr) : Expr :=
  { kind := .unary op operand }

def assignWith (op : AssignOp) (target value : Expr) : Expr :=
  { kind := .assignment op target value }

def assign (target value : Expr) : Expr :=
  assignWith .assign target value

def inParentheses (e : Expr) : Expr :=
  { kind := .parenthesized e }

def castTo (type : String) (operand : Expr) : Expr :=
  { kind := .cast (.named type) operand }

def conditional (condition thenValue elseValue : Expr) : Expr :=
  { kind := .conditional condition thenValue elseValue }

end Expr

/-! ## Statements -/

namespace Stmt

/-- The statement at a position. -/
def locatedAt (stmt : Stmt) (line column : UInt32) : Stmt :=
  { stmt with location := { line, column } }

def expression (value : Expr) : Stmt :=
  { kind := .expression value }

def block (body : List Stmt) : Stmt :=
  { kind := .block body }

/-- A declaration of one local variable. -/
def declare (type : TypeRef) (name : String) (initializer : Option Expr) : Stmt :=
  { kind := .declaration { type, declarators := [{ name, initializer }] } }

def ifElse (condition : Expr) (thenBranch : Stmt) (elseBranch : Option Stmt) : Stmt :=
  { kind := .ifElse condition thenBranch elseBranch }

def whileLoop (condition : Expr) (body : Stmt) : Stmt :=
  { kind := .whileLoop condition body }

def forLoop (initializers : List Stmt) (condition : Option Expr) (increments : List Expr)
    (body : Stmt) : Stmt :=
  { kind := .forLoop initializers condition increments body }

def returning (value : Option Expr) : Stmt :=
  { kind := .returning value }

end Stmt

/-! ## Declarations -/

/-- The attribute with one more argument. -/
def Attribute.withArgument (attr : Attribute) (name : Option String) (value : Expr) : Attribute :=
  { attr with arguments := attr.arguments ++ [{ name, value }] }

namespace FieldDecl

/-- The field at a position. -/
def locatedAt (field : FieldDecl) (line column : UInt32) : FieldDecl :=
  { field with location := { line, column } }

def withAttribute (field : FieldDecl) (attr : Attribute) : FieldDecl :=
  { field with attributes := field.attributes ++ [attr] }

def withDocumentation (field : FieldDecl) (line : String) : FieldDecl :=
  { field with documentation := field.documentation ++ [line] }

end FieldDecl

namespace ParamDecl

/-- The parameter at a position. -/
def locatedAt (parameter : ParamDecl) (line column : UInt32) : ParamDecl :=
  { parameter with location := { line, column } }

def withAttribute (parameter : ParamDecl) (attr : Attribute) : ParamDecl :=
  { parameter with attributes := parameter.attributes ++ [attr] }

end ParamDecl

namespace MethodDecl

/-- A method without parameters and result, and with an empty body. -/
def named (name : String) : MethodDecl :=
  { name, body := some [] }

/-- The method at a position. -/
def locatedAt (method : MethodDecl) (line column : UInt32) : MethodDecl :=
  { method with location := { line, column } }

def withAttribute (method : MethodDecl) (attr : Attribute) : MethodDecl :=
  { method with attributes := method.attributes ++ [attr] }

def withParameter (method : MethodDecl) (parameter : ParamDecl) : MethodDecl :=
  { method with parameters := method.parameters ++ [parameter] }

def withTypeParameter (method : MethodDecl) (name : String) : MethodDecl :=
  { method with typeParameters := method.typeParameters ++ [name] }

end MethodDecl

namespace TypeDecl

/-- A public type without members. -/
def named (name : String) : TypeDecl :=
  { name, modifiers := [.publicAccess] }

def withBase (decl : TypeDecl) (base : String) : TypeDecl :=
  { decl with baseTypes := decl.baseTypes ++ [.named base] }

def withAttribute (decl : TypeDecl) (attr : Attribute) : TypeDecl :=
  { decl with attributes := decl.attributes ++ [attr] }

def withTypeParameter (decl : TypeDecl) (name : String) : TypeDecl :=
  { decl with typeParameters := decl.typeParameters ++ [name] }

def withDocumentation (decl : TypeDecl) (line : String) : TypeDecl :=
  { decl with documentation := decl.documentation ++ [line] }

def withMember (decl : TypeDecl) (member : Member) : TypeDecl :=
  { decl with members := decl.members ++ [member] }

end TypeDecl

/-- The file with one more type. -/
def SourceFile.withType (file : SourceFile) (decl : TypeDecl) : SourceFile :=
  { file with types := file.types ++ [decl] }

end ShaderEffect
