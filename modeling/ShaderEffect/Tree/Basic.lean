import ShaderEffect.Tree.Operator

/-!
# Expressions and statements

The resolved tree of a method body. It covers the whole host language, of which only a part can
become a shader; the rest is kept so that it can be reported.
-/

namespace ShaderEffect

/-- A position in a source file. -/
structure Location where
  line : UInt32 := 0
  column : UInt32 := 0
  deriving DecidableEq

/-- The position as written in messages. -/
def Location.describe (location : Location) : String :=
  toString location.line.toNat ++ ":" ++ toString location.column.toNat

/-- A reference to a host type as written in the source. -/
inductive TypeRef where
  | named (name : String)
  | array (element : TypeRef)
  | pointer (element : TypeRef)
  /-- The type of an implicitly typed local variable. -/
  | inferred
  deriving DecidableEq

namespace TypeRef

/-- The name of a plain named type. -/
def name? : TypeRef → Option String
  | named name => some name
  | _ => none

/-- The element type of an array type. -/
def element? : TypeRef → Option TypeRef
  | array element => some element
  | _ => none

def isArray : TypeRef → Bool
  | array _ => true
  | _ => false

def isVoid : TypeRef → Bool
  | named name => name == "void" || name == "Void"
  | _ => false

/-- The type as written in messages. -/
def describe : TypeRef → String
  | named name => name
  | array element => element.describe ++ "[]"
  | pointer element => element.describe ++ "*"
  | inferred => "var"

end TypeRef

/-- A literal or the value of a compile-time constant. -/
inductive Value where
  | bool (value : Bool)
  | int (value : Int64)
  | float (value : Float)
  | string (value : String)

/-- A resolved method signature. -/
structure MethodRef where
  declaringType : String
  name : String
  parameterTypes : List String
  isStatic : Bool
  deriving DecidableEq

/-- The method as written in messages. -/
def MethodRef.describe (method : MethodRef) : String :=
  method.declaringType ++ "." ++ method.name

/-- What a name or member access was resolved to. -/
inductive Symbol where
  | field (name : String)
  | localVariable (name : String)
  | parameter (name : String)
  | method (method : MethodRef)
  | property (declaringType name : String) (isStatic : Bool)
  | typeName (name : String)
  deriving DecidableEq

/-- What the front end found out about an expression. -/
structure Notes where
  type : Option TypeRef := none
  symbol : Option Symbol := none
  constant : Option Value := none

/-- How an argument is passed to a parameter. -/
inductive PassMode where
  | byValue
  | out
  | byRef
  | readOnlyRef
  | variadic
  deriving DecidableEq

namespace PassMode

def all : List PassMode := [byValue, out, byRef, readOnlyRef, variadic]

/-- The name in the interchange format. -/
def tag : PassMode → String
  | byValue => "None"
  | out => "Out"
  | byRef => "Ref"
  | readOnlyRef => "In"
  | variadic => "Params"

end PassMode

mutual

/-- An expression with its position and what is known about it. -/
structure Expr where
  kind : ExprKind
  location : Location := {}
  notes : Notes := {}

/-- The forms of expressions. Those after `parenthesized` are never part of a shader. -/
inductive ExprKind where
  | literal (value : Value)
  | identifier (name : String)
  | memberAccess (target : Expr) (member : String)
  | index (target index : Expr)
  | invocation (callee : Expr) (arguments : List Argument)
  | objectCreation (type : TypeRef) (arguments : List Argument) (initializer : Option (List Expr))
  | arrayCreation (element : TypeRef) (size : Option Expr) (initializer : Option (List Expr))
  | arrayInitializer (values : List Expr)
  | binary (op : BinaryOp) (lhs rhs : Expr)
  | unary (op : UnaryOp) (operand : Expr)
  | assignment (op : AssignOp) (target value : Expr)
  | conditional (condition thenValue elseValue : Expr)
  | cast (type : TypeRef) (operand : Expr)
  | parenthesized (inner : Expr)
  | thisReference
  | baseReference
  | nullReference
  | anonymousObject (fields : List (String × Expr))
  | lambda (parameters : List String) (body : List Stmt)
  | anonymousMethod (parameters : List String) (body : List Stmt)
  | pointerMemberAccess (target : Expr) (member : String)
  | addressOf (operand : Expr)
  | dereference (operand : Expr)
  | sizeOfType (type : TypeRef)
  | typeOfType (type : TypeRef)
  | defaultValue (type : Option TypeRef)
  | asType (operand : Expr) (type : TypeRef)
  | isType (operand : Expr) (type : TypeRef)
  | query (clauses : List QueryClause)
  | await (operand : Expr)
  | checked (operand : Expr)
  | unchecked (operand : Expr)
  | stackAllocation (element : TypeRef) (size : Expr)
  | interpolatedString (parts : List Expr)
  | throwing (operand : Expr)

/-- An argument of an invocation or a construction. -/
structure Argument where
  name : Option String := none
  mode : PassMode := .byValue
  value : Expr

/-- A clause of a query expression. -/
structure QueryClause where
  kind : QueryClauseKind
  value : Expr

/-- A statement with its position. -/
structure Stmt where
  kind : StmtKind
  location : Location := {}

/-- The forms of statements. Those after `continueLoop` are never part of a shader. -/
inductive StmtKind where
  | block (body : List Stmt)
  | empty
  | expression (value : Expr)
  | declaration (declaration : VariableDeclaration)
  | ifElse (condition : Expr) (thenBranch : Stmt) (elseBranch : Option Stmt)
  | whileLoop (condition : Expr) (body : Stmt)
  | doWhileLoop (body : Stmt) (condition : Expr)
  | forLoop (initializers : List Stmt) (condition : Option Expr) (increments : List Expr)
      (body : Stmt)
  | returning (value : Option Expr)
  | breakLoop
  | continueLoop
  | forEachLoop (type : TypeRef) (name : String) (collection : Expr) (body : Stmt)
  | switchOn (value : Expr) (sections : List SwitchSection)
  | checkedBlock (body : List Stmt)
  | uncheckedBlock (body : List Stmt)
  | unsafeBlock (body : List Stmt)
  | fixedBlock (declaration : VariableDeclaration) (body : Stmt)
  | lockBlock (value : Expr) (body : Stmt)
  | tryBlock (body : List Stmt) (catches : List CatchClause) (finalizer : Option (List Stmt))
  | throwing (value : Option Expr)
  | usingBlock (resource : Stmt) (body : Stmt)
  | goto (label : String)
  | labeled (label : String) (body : Stmt)
  | yielding (value : Option Expr)
  | localFunction (name : String) (body : List Stmt)
  | preprocessor (text : String)

/-- A declaration of local variables of one type. -/
structure VariableDeclaration where
  type : TypeRef
  declarators : List VariableDeclarator

/-- One variable of a declaration. -/
structure VariableDeclarator where
  name : String
  initializer : Option Expr := none
  location : Location := {}

/-- A section of a switch statement; a missing label is the default label. -/
structure SwitchSection where
  labels : List (Option Expr)
  body : List Stmt

/-- A handler of a try statement. -/
structure CatchClause where
  type : Option TypeRef := none
  body : List Stmt

end

namespace Expr

/-- The expression inside any number of enclosing parentheses. -/
def unparenthesized : Expr → Expr
  | ⟨.parenthesized inner, _, _⟩ => inner.unparenthesized
  | e => e

/-- The identifier at the root of an access path such as `a.b[1].c`. -/
def rootIdentifier? : Expr → Option String
  | ⟨.identifier name, _, _⟩ => some name
  | ⟨.memberAccess target _, _, _⟩ => target.rootIdentifier?
  | ⟨.index target _, _, _⟩ => target.rootIdentifier?
  | ⟨.parenthesized inner, _, _⟩ => inner.rootIdentifier?
  | _ => none

end Expr

end ShaderEffect
