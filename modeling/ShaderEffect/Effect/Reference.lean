import ShaderEffect.Effect.Basic

/-!
# References in shader bodies

The expressions that a shader body evaluates, and the stages from which constants and textures are
referred to. Constructs that cannot be part of a shader are not looked into.
-/

namespace ShaderEffect

mutual

/-- An expression and the expressions in it, outer ones before their operands. -/
def Expr.walk (e : Expr) : List Expr :=
  e :: match e with
    | ⟨.memberAccess target _, _, _⟩ => target.walk
    | ⟨.index target index, _, _⟩ => target.walk ++ index.walk
    | ⟨.invocation callee arguments, _, _⟩ => callee.walk ++ walkArguments arguments
    | ⟨.objectCreation _ arguments _, _, _⟩ => walkArguments arguments
    | ⟨.binary _ lhs rhs, _, _⟩ => lhs.walk ++ rhs.walk
    | ⟨.assignment _ target value, _, _⟩ => target.walk ++ value.walk
    | ⟨.conditional condition thenValue elseValue, _, _⟩ =>
      condition.walk ++ thenValue.walk ++ elseValue.walk
    | ⟨.unary _ operand, _, _⟩ => operand.walk
    | ⟨.cast _ operand, _, _⟩ => operand.walk
    | ⟨.parenthesized inner, _, _⟩ => inner.walk
    | _ => []

/-- The expressions in the arguments of a call. -/
def walkArguments : List Argument → List Expr
  | [] => []
  | ⟨_, _, value⟩ :: rest => value.walk ++ walkArguments rest

end

/-- The expressions in an optional expression. -/
def walkOption : Option Expr → List Expr
  | none => []
  | some e => e.walk

mutual

/-- The expressions in a statement, in the order in which they are written. -/
def Stmt.walk : Stmt → List Expr
  | ⟨.block body, _⟩ => walkStmts body
  | ⟨.expression value, _⟩ => value.walk
  | ⟨.declaration declaration, _⟩ =>
    declaration.declarators.flatMap fun declarator => walkOption declarator.initializer
  | ⟨.ifElse condition thenBranch elseBranch, _⟩ =>
    condition.walk ++ thenBranch.walk ++ walkOptionalStmt elseBranch
  | ⟨.whileLoop condition body, _⟩ => condition.walk ++ body.walk
  | ⟨.doWhileLoop body condition, _⟩ => condition.walk ++ body.walk
  | ⟨.forLoop initializers condition increments body, _⟩ =>
    walkStmts initializers ++ walkOption condition ++ increments.flatMap Expr.walk ++ body.walk
  | ⟨.returning value, _⟩ => walkOption value
  | _ => []

/-- The expressions in a list of statements. -/
def walkStmts : List Stmt → List Expr
  | [] => []
  | stmt :: rest => stmt.walk ++ walkStmts rest

/-- The expressions in an optional statement. -/
def walkOptionalStmt : Option Stmt → List Expr
  | none => []
  | some stmt => stmt.walk

end

/-- The name of an identifier. -/
def Expr.identifier? (e : Expr) : Option String :=
  match e.kind with
  | .identifier name => some name
  | _ => none

namespace ShaderMethod

/-- The names of the identifiers in the body. -/
def identifiers (method : ShaderMethod) : List String :=
  (walkStmts method.body).filterMap Expr.identifier?

/-- Whether an identifier in the body has the name. -/
def refersTo (method : ShaderMethod) (name : String) : Bool :=
  method.identifiers.contains name

end ShaderMethod

/-- The stages of the methods that refer to one of the names. -/
def referringStages (methods : List ShaderMethod) (names : List String) : StageSet :=
  .ofPredicate fun stage =>
    methods.any fun method => method.stage == stage && names.any method.refersTo

/-- The effect with the stages that refer to each buffer and texture. -/
def Effect.withStages (effect : Effect) : Effect :=
  { effect with
    buffers := effect.buffers.map fun buffer =>
      { buffer with stages := referringStages effect.methods (buffer.constants.map (·.name)) }
    textures := effect.textures.map fun texture =>
      { texture with stages := referringStages effect.methods [texture.name] } }

end ShaderEffect
