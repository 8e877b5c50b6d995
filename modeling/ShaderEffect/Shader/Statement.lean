import ShaderEffect.Shader.Expression

/-!
# Writing statements

The lines of a shader body in a target language. Branches and loop bodies always stand in braces of
their own.
-/

namespace ShaderEffect

/-- A line of source at a depth of nesting. -/
structure Line where
  depth : Nat := 0
  text : String

namespace Line

/-- The space in front of the text per level. -/
def indentation : String := "    "

/-- A line without text. -/
def blank : Line :=
  { text := "" }

/-- The text with its indentation and the end of the line. -/
def render (line : Line) : String :=
  String.join (List.replicate line.depth indentation) ++ line.text ++ "\n"

/-- Lines in braces. -/
def braced (depth : Nat) (lines : List Line) : List Line :=
  { depth, text := "\x7b" } :: lines ++ [{ depth, text := "\x7d" }]

/-- Lines as one text. -/
def renderAll (lines : List Line) : String :=
  String.join (lines.map render)

end Line

/-- Whether a statement is a block, which brings its own braces. -/
def Stmt.isBlock (stmt : Stmt) : Bool :=
  match stmt.kind with
  | .block _ => true
  | _ => false

/-- The depth at which a branch is written. -/
def Stmt.branchDepth (stmt : Stmt) (depth : Nat) : Nat :=
  if stmt.isBlock then depth else depth + 1

/-- The lines of a branch, in braces. -/
def Stmt.encloseBranch (stmt : Stmt) (depth : Nat) (lines : List Line) : List Line :=
  if stmt.isBlock then lines else Line.braced depth lines

namespace Dialect

/-- One variable with its initializer. -/
def declarator (dialect : Dialect) (scope : Scope) (declarator : VariableDeclarator) :
    Except CompileError String :=
  match declarator.initializer with
  | some value => do return s!"{declarator.name} = {← dialect.renderText scope value}"
  | none => return declarator.name

/-- The declarations of variables, each on its line, and the scope after them. -/
def writeDeclarators (dialect : Dialect) (depth : Nat) (type : TypeRef) (scope : Scope) :
    List VariableDeclarator → Except CompileError (Scope × List Line)
  | [] => return (scope, [])
  | declarator :: rest => do
    let local_ := scope.localType type declarator.initializer
    let typeName ← dialect.typeName local_
    let text ← dialect.declarator scope declarator
    let (after, lines) ←
      dialect.writeDeclarators depth type (scope.declare declarator.name local_) rest
    return (after, { depth, text := s!"{typeName} {text};" } :: lines)

/-- The variables of a declaration in a loop header, which all have one type, and the scope after
them. -/
def headerDeclarators (dialect : Dialect) (type : DataType) (scope : Scope) :
    List VariableDeclarator → Except CompileError (Scope × List String)
  | [] => return (scope, [])
  | declarator :: rest => do
    let text ← dialect.declarator scope declarator
    let (after, texts) ←
      dialect.headerDeclarators type (scope.declare declarator.name type) rest
    return (after, text :: texts)

/-- A declaration in a loop header, and the scope after it. An inferred type is the one of the first
initializer. -/
def headerDeclaration (dialect : Dialect) (scope : Scope) (declaration : VariableDeclaration) :
    Except CompileError (Scope × String) := do
  let first := declaration.declarators.head?.bind (·.initializer)
  let type := scope.localType declaration.type first
  let typeName ← dialect.typeName type
  let (after, texts) ← dialect.headerDeclarators type scope declaration.declarators
  return (after, s!"{typeName} {commaSeparated texts}")

/-- The initializers of a loop header, and the scope after them. -/
def headerInitializers (dialect : Dialect) (scope : Scope) :
    List Stmt → Except CompileError (Scope × List String)
  | [] => return (scope, [])
  | initializer :: rest => do
    let (inner, text) ←
      match initializer.kind with
      | .declaration declaration => dialect.headerDeclaration scope declaration
      | .expression value => do pure (scope, ← dialect.renderText scope value)
      | _ => throw (.unwritable .loopInitializer)
    let (after, texts) ← dialect.headerInitializers inner rest
    return (after, text :: texts)

mutual

/-- The lines of a statement, and the scope after it. -/
def writeStmt (dialect : Dialect) (depth : Nat) (scope : Scope) (stmt : Stmt) :
    Except CompileError (Scope × List Line) :=
  match Construct.ofStmt? stmt.kind with
  | some construct => throw (.unwritable (.construct construct))
  | none =>
    match stmt with
    | ⟨.block body, _⟩ => do
      let (after, lines) ← dialect.writeStmts (depth + 1) scope body
      return (after, Line.braced depth lines)
    | ⟨.empty, _⟩ => return (scope, [])
    | ⟨.expression value, _⟩ => do
      return (scope, [{ depth, text := s!"{← dialect.renderText scope value};" }])
    | ⟨.declaration declaration, _⟩ =>
      dialect.writeDeclarators depth declaration.type scope declaration.declarators
    | ⟨.ifElse condition thenBranch elseBranch, _⟩ => do
      let condition ← dialect.renderText scope condition
      let (afterThen, thenLines) ←
        dialect.writeStmt (thenBranch.branchDepth depth) scope thenBranch
      let (after, elseLines) ← dialect.writeElse depth afterThen elseBranch
      return (after,
        { depth, text := s!"if ({condition})" } ::
          thenBranch.encloseBranch depth thenLines ++ elseLines)
    | ⟨.whileLoop condition body, _⟩ => do
      let condition ← dialect.renderText scope condition
      let (after, lines) ← dialect.writeStmt (body.branchDepth depth) scope body
      return (after,
        { depth, text := s!"while ({condition})" } :: body.encloseBranch depth lines)
    | ⟨.doWhileLoop body condition, _⟩ => do
      let (after, lines) ← dialect.writeStmt (body.branchDepth depth) scope body
      let condition ← dialect.renderText after condition
      return (after,
        { depth, text := "do" } :: body.encloseBranch depth lines ++
          [{ depth, text := s!"while ({condition});" }])
    | ⟨.forLoop initializers condition increments body, _⟩ => do
      let (inner, initializers) ← dialect.headerInitializers scope initializers
      let condition ← (condition.toList).mapM (dialect.renderText inner)
      let increments ← dialect.renderTexts inner increments
      let (after, lines) ← dialect.writeStmt (body.branchDepth depth) inner body
      let header := "; ".intercalate
        [commaSeparated initializers, commaSeparated condition, commaSeparated increments]
      return (after, { depth, text := s!"for ({header})" } :: body.encloseBranch depth lines)
    | ⟨.returning none, _⟩ => return (scope, [{ depth, text := dialect.returnStatement }])
    | ⟨.returning (some _), _⟩ => throw (.unwritable .returnValue)
    | ⟨.breakLoop, _⟩ => return (scope, [{ depth, text := "break;" }])
    | ⟨.continueLoop, _⟩ => return (scope, [{ depth, text := "continue;" }])
    | _ => throw (.unwritable .statement)

/-- The lines of the second branch of a statement, and the scope after it. -/
def writeElse (dialect : Dialect) (depth : Nat) (scope : Scope) (branch : Option Stmt) :
    Except CompileError (Scope × List Line) :=
  match branch with
  | none => return (scope, [])
  | some branch => do
    let (after, lines) ← dialect.writeStmt (branch.branchDepth depth) scope branch
    return (after, { depth, text := "else" } :: branch.encloseBranch depth lines)

/-- The lines of statements, and the scope after them. -/
def writeStmts (dialect : Dialect) (depth : Nat) (scope : Scope) (stmts : List Stmt) :
    Except CompileError (Scope × List Line) :=
  match stmts with
  | [] => return (scope, [])
  | stmt :: rest => do
    let (inner, lines) ← dialect.writeStmt depth scope stmt
    let (after, more) ← dialect.writeStmts depth inner rest
    return (after, lines ++ more)

end

end Dialect

end ShaderEffect
